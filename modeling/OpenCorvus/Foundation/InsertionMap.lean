import Mathlib.Data.List.Nodup
import Mathlib.Data.List.Perm.Basic

/-!
# Maps in insertion order

A map keeps its entries in the order in which their keys were first set.  Setting a key that is there
replaces its value in place; deleting a key and setting it again moves it to the end.
-/

/-- A `Map`: entries with distinct keys, in the order in which the keys were first set. -/
@[ext]
structure InsertionMap (κ ν : Type*) where
  entries : List (κ × ν)
  nodup : (entries.map Prod.fst).Nodup

namespace InsertionMap

open List

variable {κ ν : Type*}

/-- `new Map()` -/
def empty : InsertionMap κ ν where
  entries := []
  nodup := nodup_nil

variable (m : InsertionMap κ ν)

/-- `map.keys()` -/
def keys : List κ := m.entries.map Prod.fst

/-- `map.values()` -/
def values : List ν := m.entries.map Prod.snd

/-- `map.size` -/
def size : ℕ := m.entries.length

variable [DecidableEq κ] (key : κ)

/-- `map.has(key)` -/
def has : Bool := key ∈ m.keys

/-- `map.get(key)` -/
def get? : Option ν := (m.entries.find? fun entry => entry.1 = key).map Prod.snd

/-- The entries after `map.set(key, value)`. -/
def setEntries (key : κ) (value : ν) : List (κ × ν) → List (κ × ν)
  | [] => [(key, value)]
  | entry :: rest => if entry.1 = key then (key, value) :: rest else entry :: setEntries key value rest

lemma setEntries_keys (value : ν) (entries : List (κ × ν)) : (setEntries key value entries).map Prod.fst =
      if key ∈ entries.map Prod.fst then entries.map Prod.fst else entries.map Prod.fst ++ [key] := by
  induction entries with
  | nil => rfl
  | cons entry rest ih =>
    unfold setEntries
    by_cases h : entry.1 = key
    · simp [h]
    · have h' : ¬key = entry.1 := fun e => h e.symm
      rw [if_neg h, map_cons, ih]
      by_cases hmem : key ∈ rest.map Prod.fst
      · rw [if_pos hmem, map_cons, if_pos (mem_cons_of_mem _ hmem)]
      · rw [if_neg hmem, map_cons, if_neg (by rw [mem_cons]; exact not_or.mpr ⟨h', hmem⟩), cons_append]

/-- `map.set(key, value)` -/
def set (value : ν) : InsertionMap κ ν where
  entries := setEntries key value m.entries
  nodup := by
    rw [setEntries_keys]
    split
    · exact m.nodup
    · rename_i h
      exact nodup_append_comm.mp (nodup_cons.mpr ⟨h, m.nodup⟩)

/-- `map.delete(key)` -/
def delete : InsertionMap κ ν where
  entries := m.entries.filter fun entry => entry.1 ≠ key
  nodup := m.nodup.sublist (List.Sublist.map _ filter_sublist)

lemma has_eq_true {m : InsertionMap κ ν} {key : κ} : m.has key = true ↔ key ∈ m.entries.map Prod.fst := by
  unfold has keys
  exact decide_eq_true_iff

lemma entries_set_of_not_has {m : InsertionMap κ ν} {key : κ} (value : ν) (h : ¬m.has key = true) :
    (m.set key value).entries = m.entries ++ [(key, value)] := by
  have hset : ∀ entries : List (κ × ν), key ∉ entries.map Prod.fst →
      setEntries key value entries = entries ++ [(key, value)] := by
    intro entries hkey
    induction entries with
    | nil => rfl
    | cons _ _ ih =>
      obtain ⟨hhead, hrest⟩ := not_or.mp (mt mem_cons.mpr hkey)
      rw [setEntries, if_neg fun e => hhead e.symm, ih hrest, cons_append]
  exact hset m.entries (mt has_eq_true.mpr h)

end InsertionMap
