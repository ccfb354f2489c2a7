import OpenCorvus.Foundation.StableSort
import Mathlib.Data.List.Infix

/-!
# Files under paths

A tree of files without its empty directories: a finite map from paths to contents in which no file lies below
another.  Placing a file makes room for it: the files above it and below it are removed.  Unlinking a path
answers as the file system does.
-/

/-- One path lies above the other, or they are equal. -/
def Comparable {κ : Type*} (p q : List κ) : Prop := p <+: q ∨ q <+: p

instance {κ : Type*} [DecidableEq κ] (p q : List κ) : Decidable (Comparable p q) :=
  inferInstanceAs (Decidable (_ ∨ _))

lemma Comparable.symm {κ : Type*} {p q : List κ} (h : Comparable p q) : Comparable q p := Or.symm h

lemma Comparable.refl {κ : Type*} (p : List κ) : Comparable p p := .inl List.prefix_rfl

/-- Files under paths, none of which lies below another. -/
structure FileMap (κ α : Type*) where
  entries : List (List κ × α)
  nodup : (entries.map Prod.fst).Nodup
  apart : ∀ p ∈ entries.map Prod.fst, ∀ q ∈ entries.map Prod.fst, Comparable p q → p = q

namespace FileMap

/-- Why a file cannot be removed. -/
inductive Code where
  | noEntry
  | notDirectory
  | isDirectory

variable {κ α : Type*} {t t' : FileMap κ α} {p q : List κ} {c : α}

def keys (t : FileMap κ α) : List (List κ) := t.entries.map Prod.fst

def filter (t : FileMap κ α) (keep : List κ → Bool) : FileMap κ α where
  entries := t.entries.filter fun entry => keep entry.1
  nodup := t.nodup.sublist (List.Sublist.map _ List.filter_sublist)
  apart := fun p hp q hq =>
    t.apart p ((List.Sublist.map _ List.filter_sublist).subset hp) q
      ((List.Sublist.map _ List.filter_sublist).subset hq)

section Lookup

variable [DecidableEq κ]

def lookup (t : FileMap κ α) (p : List κ) : Option α := (t.entries.find? fun entry => entry.1 = p).map Prod.snd

def place (t : FileMap κ α) (entry : List κ × α) : FileMap κ α where
  entries := t.entries.filter (fun e => ¬Comparable entry.1 e.1) ++ [entry]
  nodup := by
    rw [List.map_append, List.map_singleton]
    refine List.nodup_append_comm.mp (List.nodup_cons.mpr ⟨fun hmem => ?_, ?_⟩)
    · obtain ⟨_, he, heq⟩ := List.mem_map.mp hmem
      have hnot := of_decide_eq_true (List.mem_filter.mp he).2
      exact hnot (heq ▸ Comparable.refl _)
    · exact t.nodup.sublist (List.Sublist.map _ List.filter_sublist)
  apart := by
    intro p hp q hq hpq
    rw [List.map_append, List.map_singleton, List.mem_append, List.mem_singleton] at hp hq
    have hold : ∀ r ∈ (t.entries.filter fun e => ¬Comparable entry.1 e.1).map Prod.fst,
        r ∈ t.entries.map Prod.fst ∧ ¬Comparable entry.1 r := by
      intro r hr
      obtain ⟨_, he, rfl⟩ := List.mem_map.mp hr
      exact ⟨List.mem_map_of_mem (List.mem_filter.mp he).1, of_decide_eq_true (List.mem_filter.mp he).2⟩
    rcases hp with hp | rfl
    · rcases hq with hq | rfl
      · exact t.apart p (hold p hp).1 q (hold q hq).1 hpq
      · exact absurd hpq.symm (hold p hp).2
    · rcases hq with hq | rfl
      · exact absurd hpq (hold q hq).2
      · rfl

def unlink (t : FileMap κ α) (p : List κ) : Except Code (FileMap κ α) :=
  if p ∈ t.keys then .ok (t.filter fun q => q ≠ p)
  else if ∃ q ∈ t.keys, q <+: p then .error .notDirectory
  else if ∃ q ∈ t.keys, p <+: q then .error .isDirectory
  else .error .noEntry

lemma lookup_eq_some_iff : t.lookup p = some c ↔ (p, c) ∈ t.entries := by
  unfold lookup
  constructor
  · intro h
    obtain ⟨entry, hentry, rfl⟩ := Option.map_eq_some_iff.mp h
    obtain rfl : entry.1 = p := of_decide_eq_true (List.find?_some (p := fun e : List κ × α => decide (e.1 = p)) hentry)
    exact List.mem_of_find?_eq_some hentry
  · intro h
    cases hfind : t.entries.find? fun entry => entry.1 = p with
    | none =>
      have hnot := List.find?_eq_none.mp hfind (p, c) h
      exact absurd (decide_eq_true rfl) hnot
    | some entry =>
      have hkey : entry.1 = p := of_decide_eq_true (List.find?_some (p := fun e : List κ × α => decide (e.1 = p)) hfind)
      have heq := List.inj_on_of_nodup_map t.nodup (List.mem_of_find?_eq_some hfind) h hkey
      rw [heq]
      rfl

lemma mem_keys_iff : p ∈ t.keys ↔ ∃ c, t.lookup p = some c := by
  constructor
  · intro h
    obtain ⟨⟨_, c⟩, hentry, rfl⟩ := List.mem_map.mp h
    exact ⟨c, lookup_eq_some_iff.mpr hentry⟩
  · rintro ⟨_, hc⟩
    exact List.mem_map.mpr ⟨_, lookup_eq_some_iff.mp hc, rfl⟩

lemma lookup_eq_none_iff : t.lookup p = none ↔ p ∉ t.keys := by
  rw [mem_keys_iff, ← Option.isSome_iff_exists, Bool.not_eq_true, Option.isSome_eq_false_iff, Option.isNone_iff_eq_none]

lemma mem_keys_of_lookup (h : t.lookup p = some c) : p ∈ t.keys := mem_keys_iff.mpr ⟨c, h⟩

omit [DecidableEq κ] in
/-- Two files one above the other are one. -/
lemma eq_of_comparable (hp : p ∈ t.keys) (hq : q ∈ t.keys) (h : Comparable p q) : p = q := t.apart p hp q hq h

lemma lookup_filter (keep : List κ → Bool) : (t.filter keep).lookup p = if keep p then t.lookup p else none := by
  have hiff : ∀ c, (t.filter keep).lookup p = some c ↔ (if keep p then t.lookup p else none) = some c := by
    intro c
    rw [lookup_eq_some_iff]
    by_cases hkeep : keep p = true
    · rw [if_pos hkeep, lookup_eq_some_iff]
      exact List.mem_filter.trans (and_iff_left hkeep)
    · rw [if_neg hkeep]
      exact iff_of_false (fun h => hkeep (List.mem_filter.mp h).2) fun h => by cases h
  exact Option.ext hiff

lemma mem_keys_filter {keep : List κ → Bool} : p ∈ (t.filter keep).keys ↔ p ∈ t.keys ∧ keep p = true := by
  rw [mem_keys_iff, mem_keys_iff, lookup_filter]
  by_cases hkeep : keep p = true <;> simp [hkeep]

lemma lookup_place (entry : List κ × α) : (t.place entry).lookup p =
    if p = entry.1 then some entry.2 else if Comparable entry.1 p then none else t.lookup p := by
  have hiff : ∀ c, (t.place entry).lookup p = some c ↔
      (if p = entry.1 then some entry.2 else if Comparable entry.1 p then none else t.lookup p) = some c := by
    intro c
    rw [lookup_eq_some_iff]
    have hmem : (p, c) ∈ (t.place entry).entries ↔
        ((p, c) ∈ t.entries ∧ ¬Comparable entry.1 p) ∨ (p, c) = entry := by
      unfold place
      rw [List.mem_append, List.mem_filter, decide_eq_true_iff, List.mem_singleton]
    rw [hmem]
    by_cases hp : p = entry.1
    · subst hp
      rw [if_pos rfl]
      constructor
      · rintro (⟨-, hnot⟩ | h)
        · exact absurd (Comparable.refl _) hnot
        · exact congrArg some (congrArg Prod.snd h).symm
      · intro h
        exact .inr (Prod.ext rfl (Option.some.inj h).symm)
    · rw [if_neg hp]
      by_cases hcomp : Comparable entry.1 p
      · rw [if_pos hcomp]
        refine iff_of_false ?_ fun h => by cases h
        rintro (⟨-, hnot⟩ | h)
        · exact hnot hcomp
        · exact hp (congrArg Prod.fst h)
      · rw [if_neg hcomp, lookup_eq_some_iff]
        exact ⟨fun h => h.elim And.left fun h => absurd (congrArg Prod.fst h) hp, fun h => .inl ⟨h, hcomp⟩⟩
  exact Option.ext hiff

lemma lookup_places {entries : List (List κ × α)} (hnodup : (entries.map Prod.fst).Nodup)
    (hapart : ∀ a ∈ entries, ∀ b ∈ entries, Comparable a.1 b.1 → a.1 = b.1) :
    (entries.foldl place t).lookup p =
      if p ∈ entries.map Prod.fst then (entries.find? fun entry => entry.1 = p).map Prod.snd
      else if ∃ q ∈ entries.map Prod.fst, Comparable q p then none else t.lookup p := by
  induction entries using List.reverseRecOn with
  | nil => simp
  | append_singleton entries entry ih =>
    have hsub : ∀ a ∈ entries, a ∈ entries ++ [entry] := fun a ha => List.mem_append_left _ ha
    have hlast : entry ∈ entries ++ [entry] := List.mem_append_right _ List.mem_cons_self
    rw [List.map_append, List.map_singleton] at hnodup
    have hnotin : entry.1 ∉ entries.map Prod.fst := fun hmem =>
      (List.nodup_append.mp hnodup).2.2 _ hmem _ List.mem_cons_self rfl
    rw [List.foldl_concat, lookup_place,
      ih (List.nodup_append.mp hnodup).1 fun a ha b hb => hapart a (hsub a ha) b (hsub b hb)]
    by_cases hp : p = entry.1
    · have hfind : entries.find? (fun e => decide (e.1 = p)) = none := by
        refine List.find?_eq_none.mpr fun e he => ?_
        rw [decide_eq_true_iff]
        exact fun h => hnotin (List.mem_map.mpr ⟨e, he, h.trans hp⟩)
      rw [if_pos hp, if_pos (by rw [List.map_append, hp]; exact List.mem_append_right _ List.mem_cons_self),
        List.find?_append, hfind, List.find?_cons, decide_eq_true hp.symm]
      rfl
    · rw [if_neg hp]
      by_cases hin : p ∈ entries.map Prod.fst
      · obtain ⟨a, ha, rfl⟩ := List.mem_map.mp hin
        have hnot : ¬Comparable entry.1 a.1 := fun h => hp (hapart entry hlast a (hsub a ha) h).symm
        rw [if_neg hnot, if_pos hin, if_pos (by rw [List.map_append]; exact List.mem_append_left _ hin),
          List.find?_append]
        have hsome : (entries.find? fun e => decide (e.1 = a.1)).isSome = true :=
          List.find?_isSome.mpr ⟨a, ha, decide_eq_true rfl⟩
        obtain ⟨_, hfound⟩ := Option.isSome_iff_exists.mp hsome
        rw [hfound]
        rfl
      · have hin' : p ∉ (entries ++ [entry]).map Prod.fst := by
          rw [List.map_append, List.mem_append, List.map_singleton, List.mem_singleton]
          exact not_or.mpr ⟨hin, hp⟩
        rw [if_neg hin, if_neg hin']
        have hex : (∃ q ∈ (entries ++ [entry]).map Prod.fst, Comparable q p) ↔
            Comparable entry.1 p ∨ ∃ q ∈ entries.map Prod.fst, Comparable q p := by
          rw [List.map_append, List.map_singleton]
          constructor
          · rintro ⟨q, hq, h⟩
            rcases List.mem_append.mp hq with hq | hq
            · exact .inr ⟨q, hq, h⟩
            · exact .inl (List.mem_singleton.mp hq ▸ h)
          · rintro (h | ⟨q, hq, h⟩)
            · exact ⟨entry.1, List.mem_append_right _ List.mem_cons_self, h⟩
            · exact ⟨q, List.mem_append_left _ hq, h⟩
        simp only [hex]
        by_cases hc : Comparable entry.1 p <;> by_cases he : ∃ q ∈ entries.map Prod.fst, Comparable q p <;>
          simp only [hc, he, if_true, if_false, or_true, true_or, or_self]

variable {cmp : List κ → List κ → Ordering} [Std.TransCmp cmp]

def normalize (cmp : List κ → List κ → Ordering) (t : FileMap κ α) : FileMap κ α where
  entries := EcmaScript.toSorted (fun left right => cmp left.1 right.1) t.entries
  nodup := (((EcmaScript.toSorted_perm _ t.entries).map _).nodup_iff).mpr t.nodup
  apart := fun p hp q hq =>
    t.apart p (((EcmaScript.toSorted_perm _ t.entries).map _).subset hp) q
      (((EcmaScript.toSorted_perm _ t.entries).map _).subset hq)

omit [Std.TransCmp cmp] in
@[simp] lemma lookup_normalize : (t.normalize cmp).lookup p = t.lookup p := by
  refine Option.ext fun c => ?_
  rw [lookup_eq_some_iff, lookup_eq_some_iff]
  exact EcmaScript.mem_toSorted

/-- Files that are the same have one normal form. -/
lemma normalize_eq_iff (heq : ∀ p q, cmp p q = .eq → p = q) :
    t.normalize cmp = t'.normalize cmp ↔ ∀ p, t.lookup p = t'.lookup p := by
  constructor
  · intro h p
    have hlookup : (t.normalize cmp).lookup p = (t'.normalize cmp).lookup p := by rw [h]
    rwa [lookup_normalize, lookup_normalize] at hlookup
  · intro h
    have hmem : ∀ entry, entry ∈ t.entries ↔ entry ∈ t'.entries := by
      rintro ⟨_, _⟩
      rw [← lookup_eq_some_iff, ← lookup_eq_some_iff, h]
    have hperm : t.entries.Perm t'.entries :=
      (List.perm_ext_iff_of_nodup (List.Nodup.of_map _ t.nodup) (List.Nodup.of_map _ t'.nodup)).mpr hmem
    have hentries : (t.normalize cmp).entries = (t'.normalize cmp).entries := by
      have htrans : Std.TransCmp fun left right : List κ × α => cmp left.1 right.1 :=
        { eq_swap := Std.OrientedCmp.eq_swap
          isLE_trans := Std.TransCmp.isLE_trans }
      refine EcmaScript.toSorted_eq_of_perm hperm fun x hx y hy hxy => ?_
      exact List.inj_on_of_nodup_map t.nodup hx hy (heq _ _ hxy)
    unfold normalize at hentries ⊢
    congr

end Lookup

end FileMap
