import Mathlib.Data.List.Nodup

/-!
# Primary keys and partial unique indexes

A table is the list of its rows in order of insertion.  A partial unique index assigns a key to some of the rows, and
an insertion is refused when a row with the same key is present.  So two covered rows with one key are the same row,
and a selection of covered rows with one key has at most one element.
-/

lemma List.mem_concat {α : Type*} {xs : List α} {x y : α} : x ∈ xs ++ [y] ↔ x ∈ xs ∨ x = y := by
  rw [mem_append, mem_singleton]

namespace UniqueIndex

open List

variable {ρ κ : Type*} {key : ρ → Option κ} {rows : List ρ}

def Unique (key : ρ → Option κ) (rows : List ρ) : Prop :=
  rows.Pairwise fun r s => ∀ k, key r = some k → key s ≠ some k

def Conflicts (key : ρ → Option κ) (rows : List ρ) (r : ρ) : Prop :=
  ∃ s ∈ rows, ∃ k, key s = some k ∧ key r = some k

instance [DecidableEq κ] : Decidable (Unique key rows) :=
  decidable_of_iff (rows.Pairwise fun r s => (key r).isSome → key s ≠ key r) <| by
    unfold Unique
    refine Pairwise.iff fun r s => ?_
    simp only [Option.isSome_iff_exists]
    constructor
    · rintro h k hk hs
      exact h ⟨k, hk⟩ (hs.trans hk.symm)
    · rintro h ⟨k, hk⟩ hs
      exact h k hk (hs.trans hk)

instance [DecidableEq κ] (r : ρ) : Decidable (Conflicts key rows r) :=
  decidable_of_iff (∃ s ∈ rows, (key s).isSome ∧ key s = key r) <| by
    simp only [Conflicts, Option.isSome_iff_exists]
    constructor
    · rintro ⟨s, hs, ⟨k, hk⟩, heq⟩
      exact ⟨s, hs, k, hk, heq ▸ hk⟩
    · rintro ⟨s, hs, k, hk, hr⟩
      exact ⟨s, hs, ⟨k, hk⟩, hk.trans hr.symm⟩

@[simp] lemma unique_nil : Unique key ([] : List ρ) := List.Pairwise.nil

section

variable (h : Unique key rows)

include h

lemma Unique.concat {r : ρ} (hr : ¬Conflicts key rows r) : Unique key (rows ++ [r]) := by
  unfold Unique
  rw [pairwise_append]
  refine ⟨h, pairwise_singleton _ _, fun s hs t ht k hk htk => hr ?_⟩
  rw [mem_singleton] at ht
  subst ht
  exact ⟨s, hs, k, hk, htk⟩

lemma Unique.sublist {rows' : List ρ} (hsub : rows'.Sublist rows) : Unique key rows' :=
  Pairwise.sublist hsub h

lemma Unique.perm {rows' : List ρ} (hperm : rows.Perm rows') : Unique key rows' :=
  hperm.pairwise h fun {_ _} hrs k hs hr => hrs k hr hs

lemma Unique.eq_of_key {r s : ρ} {k : κ} (hr : r ∈ rows) (hs : s ∈ rows) (hrk : key r = some k)
    (hsk : key s = some k) : r = s := by
  induction rows with
  | nil => cases hr
  | cons _ _ ih =>
    obtain ⟨ha, hrows⟩ := pairwise_cons.mp h
    rcases mem_cons.mp hr with rfl | hr' <;> rcases mem_cons.mp hs with rfl | hs'
    · rfl
    · exact absurd hsk (ha s hs' k hrk)
    · exact absurd hrk (ha r hr' k hsk)
    · exact ih hrows hr' hs'

lemma Unique.length_filter_le_one {p : ρ → Bool} {k : κ} (hp : ∀ r ∈ rows, p r = true → key r = some k) :
    (rows.filter p).length ≤ 1 := by
  have hfilter : (rows.filter p).Pairwise fun r s => ∀ k, key r = some k → key s ≠ some k :=
    h.sublist filter_sublist
  match hrows : rows.filter p with
  | [] => simp
  | [r] => simp
  | r :: s :: rest =>
    exfalso
    have hmem : ∀ x ∈ rows.filter p, key x = some k := fun x hx =>
      hp x (mem_of_mem_filter hx) (of_mem_filter hx)
    rw [hrows] at hfilter hmem
    exact (pairwise_cons.mp hfilter).1 s (by simp) k (hmem r (by simp)) (hmem s (by simp))

lemma Unique.filter_eq_singleton {p : ρ → Bool} {k : κ} {r : ρ} (hp : ∀ s ∈ rows, p s = true → key s = some k)
    (hr : r ∈ rows) (hpr : p r = true) : rows.filter p = [r] := by
  have hmem : r ∈ rows.filter p := mem_filter.mpr ⟨hr, hpr⟩
  have hlength := h.length_filter_le_one hp
  match hrows : rows.filter p with
  | [] => simp [hrows] at hmem
  | [s] =>
    rw [hrows, mem_singleton] at hmem
    rw [hmem]
  | _ :: _ :: _ => simp [hrows] at hlength

end

section PrimaryKey

variable {id : ρ → κ} {r s : ρ}

def PrimaryKey (id : ρ → κ) (rows : List ρ) : Prop := (rows.map id).Nodup

instance [DecidableEq κ] : Decidable (PrimaryKey id rows) :=
  inferInstanceAs (Decidable (rows.map id).Nodup)

@[simp] lemma primaryKey_nil : PrimaryKey id ([] : List ρ) := nodup_nil

lemma PrimaryKey.eq_of_id (h : PrimaryKey id rows) (hr : r ∈ rows) (hs : s ∈ rows) (heq : id r = id s) : r = s :=
  inj_on_of_nodup_map h hr hs heq

lemma PrimaryKey.concat (h : PrimaryKey id rows) (hr : ∀ s ∈ rows, id s ≠ id r) : PrimaryKey id (rows ++ [r]) := by
  unfold PrimaryKey
  rw [map_append, map_singleton, nodup_append]
  refine ⟨h, nodup_singleton _, fun k hk k' hk' => ?_⟩
  obtain ⟨s, hs, rfl⟩ := List.mem_map.mp hk
  rw [mem_singleton.mp hk']
  exact hr s hs

lemma PrimaryKey.map {update : ρ → ρ} (h : PrimaryKey id rows) (hid : ∀ r, id (update r) = id r) :
    PrimaryKey id (rows.map update) := by
  unfold PrimaryKey
  rw [List.map_map]
  have hcomp : id ∘ update = id := funext hid
  rwa [hcomp]

lemma PrimaryKey.pairwise (h : PrimaryKey id rows) : rows.Pairwise fun r s => id r ≠ id s :=
  pairwise_map.mp h

lemma PrimaryKey.erase [DecidableEq ρ] (h : PrimaryKey id rows) : PrimaryKey id (rows.erase r) :=
  Nodup.sublist (erase_sublist.map id) h

lemma PrimaryKey.id_ne_of_mem_erase [DecidableEq ρ] (h : PrimaryKey id rows) (hr : r ∈ rows)
    (hs : s ∈ rows.erase r) : id s ≠ id r := by
  have hperm : ((r :: rows.erase r).map id).Nodup :=
    ((perm_cons_erase hr).map id).nodup_iff.mp h
  rw [map_cons, nodup_cons] at hperm
  exact fun heq => hperm.1 (heq ▸ List.mem_map_of_mem hs)

lemma PrimaryKey.replace [DecidableEq ρ] (h : PrimaryKey id rows) (hr : r ∈ rows) (hs : id s = id r) :
    PrimaryKey id (rows.erase r ++ [s]) :=
  h.erase.concat fun _ ht heq => h.id_ne_of_mem_erase hr ht (heq.trans hs)

lemma PrimaryKey.find?_eq_some [DecidableEq κ] (h : PrimaryKey id rows) (hr : r ∈ rows) :
    rows.find? (fun s => id s = id r) = some r := by
  cases hfind : rows.find? fun s => id s = id r with
  | none => simpa using find?_eq_none.mp hfind r hr
  | some s =>
    have hid : id s = id r := by simpa using find?_some hfind
    rw [h.eq_of_id (mem_of_find?_eq_some hfind) hr hid]

lemma PrimaryKey.filter_eq_singleton [DecidableEq κ] (h : PrimaryKey id rows) (hr : r ∈ rows) :
    rows.filter (fun s => id s = id r) = [r] := by
  have hnodup : (rows.filter fun s => id s = id r).Nodup := (Nodup.of_map id h).filter _
  refine perm_singleton.mp ((perm_ext_iff_of_nodup hnodup (nodup_singleton r)).mpr ?_)
  intro s
  rw [mem_filter, decide_eq_true_eq, mem_singleton]
  constructor
  · rintro ⟨hs, heq⟩
    exact h.eq_of_id hs hr heq
  · rintro rfl
    exact ⟨hr, rfl⟩

end PrimaryKey

end UniqueIndex
