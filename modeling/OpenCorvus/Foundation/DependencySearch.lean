import Mathlib.Data.List.Nodup
import Mathlib.Logic.Relation

/-!
# Searches along dependencies

A finite graph is a list of nodes with their dependencies.  `grow` sweeps over the nodes and adds those that
depend on a member until nothing changes; `search` looks for a target backwards from a candidate, with a
stack and the nodes that it has visited.  On a closed graph without repeated names both decide
reachability.
-/

namespace DependencySearch

open List

variable {α : Type*} [DecidableEq α] {nodes : List (α × List α)} {members visited pending : List α}
  {target x y : α}

def DependsOn (nodes : List (α × List α)) (x y : α) : Prop :=
  ∃ node ∈ nodes, node.1 = x ∧ y ∈ node.2

def sweep (nodes : List (α × List α)) (members : List α) : List α :=
  nodes.foldl
    (fun members node =>
      if node.1 ∈ members ∨ ¬∃ dependency ∈ node.2, dependency ∈ members then members
      else members ++ [node.1])
    members

lemma subset_sweep (nodes : List (α × List α)) (members : List α) : members ⊆ sweep nodes members := by
  induction nodes generalizing members with
  | nil => exact Subset.refl _
  | cons _ _ ih =>
    unfold sweep
    rw [foldl_cons]
    split_ifs
    · exact ih members
    · exact Subset.trans (subset_append_left _ _) (ih _)

lemma length_le_sweep (nodes : List (α × List α)) (members : List α) :
    members.length ≤ (sweep nodes members).length := by
  induction nodes generalizing members with
  | nil => exact Nat.le_refl _
  | cons _ _ ih =>
    unfold sweep
    rw [foldl_cons]
    split_ifs
    · exact ih members
    · exact Nat.le_trans (by simp) (ih _)

lemma closed_of_sweep (h : (sweep nodes members).length = members.length) (hdepends : DependsOn nodes x y)
    (hy : y ∈ members) : x ∈ members := by
  obtain ⟨_, hnode, rfl, hdependency⟩ := hdepends
  induction nodes with
  | nil => cases hnode
  | cons first nodes ih =>
    unfold sweep at h
    rw [foldl_cons] at h
    split_ifs at h with hkept
    · rcases mem_cons.mp hnode with rfl | hrest
      · exact hkept.resolve_right fun hnone => hnone ⟨y, hdependency, hy⟩
      · exact ih h hrest
    · have hgrown := length_le_sweep nodes (members ++ [first.1])
      unfold sweep at hgrown
      rw [h, length_append, length_singleton] at hgrown
      omega

lemma forall_sweep {P : α → Prop} (hstep : ∀ x y, DependsOn nodes x y → P y → P x)
    (hmembers : ∀ x ∈ members, P x) : ∀ x ∈ sweep nodes members, P x := by
  induction nodes generalizing members with
  | nil => exact hmembers
  | cons node nodes ih =>
    have hrest : ∀ x y, DependsOn nodes x y → P y → P x := by
      rintro x y ⟨other, hother, hx, hy⟩
      exact hstep x y ⟨other, mem_cons_of_mem _ hother, hx, hy⟩
    unfold sweep
    rw [foldl_cons]
    split_ifs with hkept
    · exact ih hrest hmembers
    · obtain ⟨-, hnew⟩ := not_or.mp hkept
      obtain ⟨y, hdependency, hy⟩ := not_not.mp hnew
      refine ih hrest fun x hx => ?_
      rcases mem_append.mp hx with hold | hlast
      · exact hmembers x hold
      · rw [mem_singleton.mp hlast]
        exact hstep _ y ⟨node, mem_cons_self, rfl, hdependency⟩ (hmembers y hy)

def outside (nodes : List (α × List α)) (members : List α) : List (α × List α) :=
  nodes.filter fun node => node.1 ∉ members

lemma length_outside_lt {larger : List α} {node : α × List α} (hsubset : members ⊆ larger)
    (hnode : node ∈ nodes) (hout : node.1 ∉ members) (hin : node.1 ∈ larger) :
    (outside nodes larger).length < (outside nodes members).length := by
  have hle : ∀ l : List (α × List α), (outside l larger).length ≤ (outside l members).length := by
    intro l
    refine (monotone_filter_right l fun other hother => ?_).length_le
    rw [decide_eq_true_eq] at hother ⊢
    exact fun hmem => hother (hsubset hmem)
  obtain ⟨before, after, rfl⟩ := append_of_mem hnode
  have hbefore := hle before
  have hafter := hle after
  unfold outside at hbefore hafter ⊢
  simp only [filter_append, length_append, filter_cons, hin, hout, not_true_eq_false,
    not_false_eq_true, decide_true, decide_false, if_true, Bool.false_eq_true, if_false, length_cons]
  omega

lemma outside_sweep_lt (h : (sweep nodes members).length ≠ members.length) :
    (outside nodes (sweep nodes members)).length < (outside nodes members).length := by
  have hnew : ∃ node ∈ nodes, node.1 ∉ members ∧ node.1 ∈ sweep nodes members := by
    by_contra hnone
    push Not at hnone
    refine h (congrArg List.length (?_ : sweep nodes members = members))
    have hkeep : ∀ l : List (α × List α), (∀ node ∈ l, node.1 ∉ members → node.1 ∉ sweep nodes members) →
        (∀ node ∈ l, node.1 ∉ members → node.1 ∉ sweep l members) → sweep l members = members := by
      intro l
      induction l with
      | nil => exact fun _ _ => rfl
      | cons first l ih =>
        intro hall hl
        unfold sweep at hl ⊢
        rw [foldl_cons] at hl ⊢
        split_ifs at hl ⊢ with hkept
        · exact ih (fun node hnode => hall node (mem_cons_of_mem _ hnode))
            fun node hnode => hl node (mem_cons_of_mem _ hnode)
        · exact absurd (subset_sweep l _ (mem_append_right _ (mem_singleton_self _)))
            (hl first mem_cons_self (not_or.mp hkept).1)
    exact hkeep nodes hnone hnone
  obtain ⟨_, hnode, hout, hin⟩ := hnew
  exact length_outside_lt (subset_sweep nodes members) hnode hout hin

/-- Sweep until nothing changes. -/
def grow (nodes : List (α × List α)) (members : List α) : List α :=
  if (sweep nodes members).length = members.length then members else grow nodes (sweep nodes members)
termination_by (outside nodes members).length
decreasing_by exact outside_sweep_lt ‹_›

theorem mem_grow_iff :
    x ∈ grow nodes members ↔ ∃ root ∈ members, Relation.ReflTransGen (DependsOn nodes) x root := by
  induction members using grow.induct nodes with
  | case1 _ hsame =>
    rw [grow, if_pos hsame]
    constructor
    · exact fun hx => ⟨x, hx, .refl⟩
    · rintro ⟨_, hroot, hpath⟩
      induction hpath using Relation.ReflTransGen.head_induction_on with
      | refl => exact hroot
      | head hdepends _ ih => exact closed_of_sweep hsame hdepends ih
  | case2 members hmore ih =>
    rw [grow, if_neg hmore, ih]
    constructor
    · rintro ⟨root, hroot, hpath⟩
      have hreaches := forall_sweep (P := fun x => ∃ r ∈ members, Relation.ReflTransGen (DependsOn nodes) x r)
        (fun x y hdepends hy => hy.imp fun r hr => ⟨hr.1, .head hdepends hr.2⟩)
        (fun x hx => ⟨x, hx, .refl⟩) root hroot
      obtain ⟨r, hr, hrest⟩ := hreaches
      exact ⟨r, hr, hpath.trans hrest⟩
    · rintro ⟨root, hroot, hpath⟩
      exact ⟨root, subset_sweep nodes members hroot, hpath⟩

def dependencies? (nodes : List (α × List α)) (x : α) : Option (List α) :=
  (nodes.reverse.find? fun node => node.1 = x).map Prod.snd

lemma exists_of_dependencies? {found : List α} (h : dependencies? nodes x = some found) :
    ∃ node ∈ nodes, node.1 = x ∧ node.2 = found := by
  obtain ⟨node, hnode, rfl⟩ := Option.map_eq_some_iff.mp h
  exact ⟨node, mem_reverse.mp (mem_of_find?_eq_some hnode),
    by simpa using find?_some hnode, rfl⟩

def search (nodes : List (α × List α)) (target : α) (visited : List α) : List α → Bool
  | [] => false
  | current :: pending =>
    if current ∈ visited then search nodes target visited pending
    else
      match _found : dependencies? nodes current with
      | none => false
      | some found =>
        if target ∈ found then true
        else search nodes target (visited ++ [current]) (found.reverse ++ pending)
termination_by pending => ((outside nodes visited).length, pending.length)
decreasing_by
  · exact Prod.Lex.right _ (Nat.lt_succ_self _)
  · obtain ⟨_, hnode, rfl, -⟩ := exists_of_dependencies? _found
    exact Prod.Lex.left _ _ (length_outside_lt (subset_append_left _ _) hnode ‹_›
      (mem_append_right _ (mem_singleton_self _)))

lemma search_cons_of_not_mem (h : x ∉ visited) :
    search nodes target visited (x :: pending) = (dependencies? nodes x).elim false fun found =>
      decide (target ∈ found) || search nodes target (visited ++ [x]) (found.reverse ++ pending) := by
  rw [search, if_neg h]
  split
  next hnone => rw [hnone, Option.elim_none]
  next found hfound =>
    rw [hfound, Option.elim_some]
    by_cases htarget : target ∈ found <;> simp [htarget]

lemma transGen_of_search (h : search nodes target visited pending = true) :
    ∃ x ∈ pending, Relation.TransGen (DependsOn nodes) x target := by
  induction visited, pending using search.induct nodes target with
  | case1 => simp [search] at h
  | case2 _ _ _ hvisited ih =>
    rw [search, if_pos hvisited] at h
    obtain ⟨x, hx, hpath⟩ := ih h
    exact ⟨x, mem_cons_of_mem _ hx, hpath⟩
  | case3 _ _ _ hvisited hnone =>
    rw [search_cons_of_not_mem hvisited, hnone] at h
    cases h
  | case4 _ current _ _ _ hfound htarget =>
    obtain ⟨node, hnode, hcurrent, rfl⟩ := exists_of_dependencies? hfound
    exact ⟨current, mem_cons_self, .single ⟨node, hnode, hcurrent, htarget⟩⟩
  | case5 visited current pending hvisited found hfound htarget ih =>
    have hmore : search nodes target (visited ++ [current]) (found.reverse ++ pending) = true := by
      simpa [search_cons_of_not_mem hvisited, hfound, htarget] using h
    obtain ⟨x, hx, hpath⟩ := ih hmore
    obtain ⟨node, hnode, hcurrent, rfl⟩ := exists_of_dependencies? hfound
    rcases mem_append.mp hx with hnew | hold
    · exact ⟨current, mem_cons_self, .head ⟨node, hnode, hcurrent, mem_reverse.mp hnew⟩ hpath⟩
    · exact ⟨x, mem_cons_of_mem _ hold, hpath⟩

structure Closed (nodes : List (α × List α)) : Prop where
  names : (nodes.map Prod.fst).Nodup
  dependencies : ∀ node ∈ nodes, ∀ dependency ∈ node.2, ∃ other ∈ nodes, other.1 = dependency

lemma Closed.dependencies?_eq (h : Closed nodes) {node : α × List α} (hnode : node ∈ nodes) :
    dependencies? nodes node.1 = some node.2 := by
  have hfound : (nodes.reverse.find? fun other => other.1 = node.1) = some node := by
    obtain ⟨other, hother⟩ := Option.isSome_iff_exists.mp (find?_isSome.mpr
      ⟨node, mem_reverse.mpr hnode, decide_eq_true rfl⟩ :
        (nodes.reverse.find? fun other => other.1 = node.1).isSome = true)
    have hsame := inj_on_of_nodup_map h.names (mem_reverse.mp (mem_of_find?_eq_some hother)) hnode
      (by simpa using find?_some hother)
    rw [hother, hsame]
  rw [dependencies?, hfound, Option.map_some]

lemma exists_closed_of_search (h : Closed nodes) (hfails : search nodes target visited pending = false)
    (hpending : ∀ x ∈ pending, ∃ node ∈ nodes, node.1 = x)
    (hvisited : ∀ x ∈ visited, ∀ y, DependsOn nodes x y → y ≠ target ∧ (y ∈ visited ∨ y ∈ pending)) :
    ∃ seen : List α, visited ⊆ seen ∧ pending ⊆ seen ∧
      ∀ x ∈ seen, ∀ y, DependsOn nodes x y → y ≠ target ∧ y ∈ seen := by
  induction visited, pending using search.induct nodes target with
  | case1 visited =>
    refine ⟨visited, Subset.refl _, nil_subset _, fun x hx y hdepends => ?_⟩
    exact (hvisited x hx y hdepends).imp_right fun hy => hy.resolve_right not_mem_nil
  | case2 _ _ _ hmem ih =>
    rw [search, if_pos hmem] at hfails
    obtain ⟨seen, hold, hrest, hclosed⟩ := ih hfails (fun x hx => hpending x (mem_cons_of_mem _ hx))
      fun x hx y hdepends => (hvisited x hx y hdepends).imp_right fun hy => by
        rcases hy with hy | hy
        · exact .inl hy
        · rcases mem_cons.mp hy with rfl | hy
          · exact .inl hmem
          · exact .inr hy
    exact ⟨seen, hold, cons_subset.mpr ⟨hold hmem, hrest⟩, hclosed⟩
  | case3 _ current _ _ hnone =>
    obtain ⟨_, hnode, rfl⟩ := hpending current mem_cons_self
    rw [h.dependencies?_eq hnode] at hnone
    cases hnone
  | case4 _ _ _ hmem _ hfound htarget =>
    simp [search_cons_of_not_mem hmem, hfound, htarget] at hfails
  | case5 visited current pending hmem found hfound htarget ih =>
    have hmore : search nodes target (visited ++ [current]) (found.reverse ++ pending) = false := by
      simpa [search_cons_of_not_mem hmem, hfound, htarget] using hfails
    obtain ⟨node, hnode, rfl, rfl⟩ := exists_of_dependencies? hfound
    have hknown : ∀ x ∈ node.2.reverse ++ pending, ∃ other ∈ nodes, other.1 = x := by
      intro x hx
      rcases mem_append.mp hx with hnew | hx
      · exact h.dependencies node hnode x (mem_reverse.mp hnew)
      · exact hpending x (mem_cons_of_mem _ hx)
    have hsafe : ∀ x ∈ visited ++ [node.1], ∀ y, DependsOn nodes x y →
        y ≠ target ∧ (y ∈ visited ++ [node.1] ∨ y ∈ node.2.reverse ++ pending) := by
      intro x hx y hdepends
      rcases mem_append.mp hx with hx | hlast
      · refine (hvisited x hx y hdepends).imp_right fun hy => ?_
        rcases hy with hy | hy
        · exact .inl (mem_append_left _ hy)
        · rcases mem_cons.mp hy with rfl | hy
          · exact .inl (mem_append_right _ (mem_singleton_self _))
          · exact .inr (mem_append_right _ hy)
      · rw [mem_singleton.mp hlast] at hdepends
        obtain ⟨_, hother, hname, hy⟩ := hdepends
        have hsame := inj_on_of_nodup_map h.names hother hnode hname
        subst hsame
        exact ⟨fun heq => htarget (heq ▸ hy), .inr (mem_append_left _ (mem_reverse.mpr hy))⟩
    obtain ⟨seen, hold, hrest, hclosed⟩ := ih hmore hknown hsafe
    refine ⟨seen, Subset.trans (subset_append_left _ _) hold, cons_subset.mpr ⟨?_, ?_⟩, hclosed⟩
    · exact hold (mem_append_right _ (mem_singleton_self _))
    · exact Subset.trans (subset_append_right _ _) hrest

theorem search_singleton_iff (h : Closed nodes) :
    search nodes target [] [x] = true ↔ Relation.TransGen (DependsOn nodes) x target := by
  constructor
  · intro hfound
    obtain ⟨_, hy, hpath⟩ := transGen_of_search hfound
    rwa [mem_singleton.mp hy] at hpath
  · intro hpath
    by_contra hfails
    rw [Bool.not_eq_true] at hfails
    obtain ⟨_, ⟨node, hnode, hname, -⟩, -⟩ := Relation.TransGen.head'_iff.mp hpath
    obtain ⟨seen, -, hcandidate, hclosed⟩ := exists_closed_of_search h hfails
      (fun z hz => ⟨node, hnode, by rw [hname, mem_singleton.mp hz]⟩)
      (fun z hz => absurd hz not_mem_nil)
    have hseen : ∀ z, Relation.TransGen (DependsOn nodes) x z → z ≠ target ∧ z ∈ seen := by
      intro z hz
      induction hz with
      | single hdepends => exact hclosed x (hcandidate (mem_singleton_self _)) _ hdepends
      | tail _ hdepends ih => exact hclosed _ ih.2 _ hdepends
    exact (hseen target hpath).1 rfl

end DependencySearch
