import Mathlib.Data.List.Basic

/-!
# Replacing one element of a list

A table of objects that never move is a list, and an update replaces the element at an index.  The
lemmas say what a replacement leaves of a count, a selection or a search.
-/

namespace ListUpdate

open List

variable {β γ : Type*} {xs : List β} {i : ℕ} {x y : β}

lemma exists_set_split (hx : xs[i]? = some x) :
    ∃ before after, xs = before ++ x :: after ∧ ∀ y, xs.set i y = before ++ y :: after := by
  obtain ⟨hi, rfl⟩ := List.getElem?_eq_some_iff.mp hx
  refine ⟨xs.take i, xs.drop (i + 1), by simp, fun y => ?_⟩
  exact set_eq_take_append_cons_drop.trans (if_pos hi)

variable {p : β → Bool}

section

variable (hx : xs[i]? = some x)

include hx

lemma countP_set_add : (xs.set i y).countP p + (if p x then 1 else 0) = xs.countP p + (if p y then 1 else 0) := by
  obtain ⟨_, _, hxs, hset⟩ := exists_set_split hx
  rw [hset y, hxs]
  simp only [countP_append, countP_cons]
  omega

lemma countP_set_same (h : p y = p x) : (xs.set i y).countP p = xs.countP p := by
  have hcount := countP_set_add (p := p) (y := y) hx
  rw [h] at hcount
  exact Nat.add_right_cancel hcount

lemma countP_set_out (h : p x = true) (h' : p y = false) : (xs.set i y).countP p + 1 = xs.countP p := by
  have hcount := countP_set_add (p := p) (y := y) hx
  simpa [h, h'] using hcount

lemma countP_set_in (h : p x = false) (h' : p y = true) : (xs.set i y).countP p = xs.countP p + 1 := by
  have hcount := countP_set_add (p := p) (y := y) hx
  simpa [h, h'] using hcount

/-- An element that is still selected after its replacement, with the same image, leaves the images
of the selection. -/
lemma filterMap_set_eq {f : β → Option γ} (hf : f y = f x) : (xs.set i y).filterMap f = xs.filterMap f := by
  obtain ⟨_, _, hxs, hset⟩ := exists_set_split hx
  rw [hset y, hxs]
  simp [filterMap_append, filterMap_cons, hf]

/-- An element that is no longer selected after its replacement leaves the images of the others. -/
lemma filterMap_set_none {f : β → Option γ} {c : γ} (hf : f x = some c) (hy : f y = none) :
    ∃ before after, xs.filterMap f = before ++ c :: after ∧
      (xs.set i y).filterMap f = before ++ after := by
  obtain ⟨before, after, hxs, hset⟩ := exists_set_split hx
  refine ⟨before.filterMap f, after.filterMap f, ?_, ?_⟩
  · rw [hxs, filterMap_append, filterMap_cons, hf]
  · rw [hset y, filterMap_append, filterMap_cons, hy]

end

lemma countP_mapIdx_eq {f : ℕ → β → β} (h : ∀ i x, xs[i]? = some x → p (f i x) = p x) :
    (xs.mapIdx f).countP p = xs.countP p := by
  induction xs generalizing f with
  | nil => rfl
  | cons x xs ih =>
    have hhead : p (f 0 x) = p x := h 0 x rfl
    have htail : (xs.mapIdx fun i => f (i + 1)).countP p = xs.countP p :=
      ih fun i y hy => h (i + 1) y hy
    rw [mapIdx_cons, countP_cons, countP_cons, hhead, htail]

/-- An update that keeps the image of an element, or its place in the selection, selects from what was
selected. -/
lemma filterMap_mapIdx_sublist {f : ℕ → β → β} {g : β → Option γ}
    (h : ∀ i x, g (f i x) = g x ∨ g (f i x) = none) :
    ((xs.mapIdx f).filterMap g).Sublist (xs.filterMap g) := by
  induction xs generalizing f with
  | nil => exact .slnil
  | cons x xs ih =>
    have htail : ((xs.mapIdx fun i => f (i + 1)).filterMap g).Sublist (xs.filterMap g) :=
      ih fun i y => h (i + 1) y
    rw [mapIdx_cons, filterMap_cons, filterMap_cons]
    rcases h 0 x with heq | heq
    · rw [heq]
      cases g x with
      | none => exact htail
      | some c => exact htail.cons_cons c
    · rw [heq]
      cases g x with
      | none => exact htail
      | some c => exact htail.cons c

section Lookup

variable {κ ν : Type*} [DecidableEq κ] {rows : List (κ × ν)} {k k' : κ}

/-- Removing a key leaves the others. -/
lemma lookup_filter_ne (h : k' ≠ k) : (rows.filter fun row => row.1 ≠ k).lookup k' = rows.lookup k' := by
  induction rows with
  | nil => rfl
  | cons row _ ih =>
    obtain ⟨key, _⟩ := row
    by_cases hkey : key = k
    · have hmiss : (k' == key) = false := by simpa [hkey] using h
      rw [filter_cons_of_neg (by simpa using hkey), lookup_cons, hmiss, ih]
    · rw [filter_cons_of_pos (by simpa using hkey), lookup_cons, lookup_cons, ih]

/-- A removed key is not found. -/
lemma lookup_filter_self : (rows.filter fun row => row.1 ≠ k).lookup k = none := by
  rw [List.lookup_eq_none_iff]
  intro row hrow
  have hne : row.1 ≠ k := by simpa using of_mem_filter hrow
  simpa using hne.symm

/-- What is found after a key was removed was there before, under another key. -/
lemma lookup_of_lookup_filter {v : ν} (h : (rows.filter fun row => row.1 ≠ k).lookup k' = some v) :
    k' ≠ k ∧ rows.lookup k' = some v := by
  by_cases hkey : k' = k
  · rw [hkey, lookup_filter_self] at h
    cases h
  · exact ⟨hkey, lookup_filter_ne hkey ▸ h⟩

end Lookup

end ListUpdate
