import Mathlib.Data.List.MinMax
import Mathlib.Data.Int.Order.Basic

/-!
# The latest row of a table

A query `ORDER BY key DESC LIMIT 1` answers with a row of greatest key, which is
`List.argmax key`.  When no two rows share a key the answer is determined by the set of rows
alone, and the lemmas below say how it moves when the table grows by one row or when rows are
rewritten in place without touching their key.
-/

namespace LatestRow

open List

variable {ρ κ : Type*} {key : ρ → κ} {rows : List ρ}

def KeyInjective (key : ρ → κ) (rows : List ρ) : Prop :=
  ∀ r ∈ rows, ∀ s ∈ rows, key r = key s → r = s

lemma KeyInjective.filter (h : KeyInjective key rows) (p : ρ → Bool) : KeyInjective key (rows.filter p) :=
  fun r hr s hs => h r (mem_of_mem_filter hr) s (mem_of_mem_filter hs)

/-- The order of the integers, found before the one of their conditionally complete lattice, so that keys
with integers are compared by a program. -/
instance (priority := high) linearOrderInt : LinearOrder ℤ := Int.instLinearOrder

instance (priority := high) preorderInt : Preorder ℤ := Int.instLinearOrder.toPreorder

variable [LinearOrder κ]

lemma exists_argmax_of_mem {r : ρ} (hr : r ∈ rows) : ∃ m, rows.argmax key = some m := by
  cases h : rows.argmax key with
  | none => simp [argmax_eq_none.mp h] at hr
  | some m => exact ⟨m, rfl⟩

lemma argmax_eq_some_iff_of_keyInjective (h : KeyInjective key rows) {m : ρ} :
    rows.argmax key = some m ↔ m ∈ rows ∧ ∀ r ∈ rows, key r ≤ key m := by
  constructor
  · intro hm
    exact ⟨argmax_mem hm, fun r hr => le_of_mem_argmax hr hm⟩
  · rintro ⟨hm, hle⟩
    obtain ⟨m', hm'⟩ : ∃ m', rows.argmax key = some m' := exists_argmax_of_mem hm
    have hkey : key m = key m' :=
      le_antisymm (le_of_mem_argmax hm hm') (hle m' (argmax_mem hm'))
    rw [hm', h m hm m' (argmax_mem hm') hkey]

lemma argmax_concat_of_forall_lt {a : ρ} (h : ∀ r ∈ rows, key r < key a) : (rows ++ [a]).argmax key = some a := by
  rw [argmax_concat]
  cases hm : rows.argmax key with
  | none => rfl
  | some m =>
    have : key m < key a := h m (argmax_mem hm)
    simp [this]

lemma forall_le_of_argmax_concat {a : ρ} (h : (rows ++ [a]).argmax key = some a) : ∀ r ∈ rows, key r ≤ key a :=
  fun _ hr => le_of_mem_argmax (mem_append_left _ hr) h

lemma argmax_ne_of_lt {r s : ρ} (hs : s ∈ rows) (h : key r < key s) : rows.argmax key ≠ some r :=
  fun hr => absurd (le_of_mem_argmax hs hr) (not_le_of_gt h)

lemma argmax_map {f : ρ → ρ} (h : ∀ r ∈ rows, key (f r) = key r) :
    (rows.map f).argmax key = (rows.argmax key).map f := by
  induction rows using List.reverseRecOn with
  | nil => rfl
  | append_singleton rows a ih =>
    rw [map_append, map_singleton, argmax_concat, argmax_concat,
      ih fun r hr => h r (mem_append_left _ hr)]
    cases hm : rows.argmax key with
    | none => rfl
    | some m =>
      have hkm : key (f m) = key m := h m (mem_append_left _ (argmax_mem hm))
      have hka : key (f a) = key a := h a (by simp)
      simp only [Option.map_some, hkm, hka]
      split_ifs <;> rfl

end LatestRow
