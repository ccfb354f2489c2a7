import Mathlib.Data.List.Sort
import Mathlib.Data.List.Dedup
import Mathlib.Data.List.DropRight

/-!
# Strings and sorting of the source language

The few parts of the source language's standard library whose behaviour differs from that of
Lean's own types: comparison of strings by UTF-16 code units, comparison by the host's collation,
stable sorting by a comparator, and trimming.
-/

namespace EcmaScript

open List

/-- The order of strings that `localeCompare` uses: a total preorder chosen by the host. -/
class Collation where
  /-- `left.localeCompare(right)`. -/
  localeCompare : String → String → Ordering
  /-- Comparison is oriented and transitive. -/
  trans : Std.TransCmp localeCompare

export Collation (localeCompare)

/-- Comparison by code point, one of the orders a host may choose. -/
@[reducible] def codePointCollation : Collation := ⟨compare, inferInstance⟩

/-- The UTF-16 code units of one character: itself, or its surrogate pair. -/
def codeUnits (c : Char) : List ℕ :=
  if c.toNat < 0x10000 then [c.toNat]
  else [0xD800 + (c.toNat - 0x10000) / 0x400, 0xDC00 + (c.toNat - 0x10000) % 0x400]

def codeUnitCompare (left right : String) : Ordering :=
  compare (left.toList.flatMap codeUnits) (right.toList.flatMap codeUnits)

/-- The default order compares by a key. -/
instance : Std.TransCmp codeUnitCompare :=
  inferInstanceAs (Std.TransCmp (compareOn fun text : String => text.toList.flatMap codeUnits))

/-- `values.toSorted(cmp)`: a stable sort that puts `left` first unless it compares greater. -/
def toSorted {β : Type*} (cmp : β → β → Ordering) (values : List β) : List β :=
  values.insertionSort fun left right => (cmp left right).isLE

lemma toSorted_perm {β : Type*} (cmp : β → β → Ordering) (values : List β) : (toSorted cmp values).Perm values :=
  perm_insertionSort _ values

@[simp] lemma mem_toSorted {β : Type*} {cmp : β → β → Ordering} {values : List β} {x : β} :
    x ∈ toSorted cmp values ↔ x ∈ values :=
  (toSorted_perm cmp values).mem_iff

@[simp] lemma length_toSorted {β : Type*} (cmp : β → β → Ordering) (values : List β) :
    (toSorted cmp values).length = values.length :=
  (toSorted_perm cmp values).length_eq

@[simp] lemma toSorted_eq_nil {β : Type*} {cmp : β → β → Ordering} {values : List β} :
    toSorted cmp values = [] ↔ values = [] := by
  rw [← length_eq_zero_iff, length_toSorted, length_eq_zero_iff]

lemma pairwise_toSorted {β : Type*} {cmp : β → β → Ordering} [Std.TransCmp cmp] (values : List β) :
    (toSorted cmp values).Pairwise fun left right => (cmp left right).isLE = true := by
  have htotal : Std.Total fun left right => (cmp left right).isLE = true := by
    refine ⟨fun left right => ?_⟩
    have hswap : cmp left right = (cmp right left).swap := Std.OrientedCmp.eq_swap
    rw [hswap]
    cases cmp right left <;> simp
  have htrans : IsTrans β fun left right => (cmp left right).isLE = true :=
    ⟨fun _ _ _ hab hbc => Std.TransCmp.isLE_trans hab hbc⟩
  exact List.pairwise_insertionSort _ values

lemma toSorted_head_isLE {β : Type*} {cmp : β → β → Ordering} [Std.TransCmp cmp]
    {values rest : List β} {x y : β} (h : toSorted cmp values = x :: rest) (hy : y ∈ values) :
    (cmp x y).isLE := by
  have hsorted : (toSorted cmp values).Pairwise fun left right => (cmp left right).isLE = true :=
    pairwise_toSorted values
  have hmem : y ∈ toSorted cmp values := mem_toSorted.mpr hy
  rw [h] at hsorted hmem
  rcases mem_cons.mp hmem with rfl | hrest
  · have hself : cmp y y = .eq := Std.ReflCmp.compare_self
    rw [hself]
    rfl
  · exact (pairwise_cons.mp hsorted).1 y hrest

lemma toSorted_map_of_mem {β γ : Type*} {cmp : β → β → Ordering} {cmp' : γ → γ → Ordering} {f : β → γ}
    {values : List β} (h : ∀ x ∈ values, ∀ y ∈ values, cmp' (f x) (f y) = cmp x y) :
    toSorted cmp' (values.map f) = (toSorted cmp values).map f := by
  unfold toSorted
  refine (map_insertionSort _ _ f values fun x hx y hy => ?_).symm
  rw [h x hx y hy]

lemma toSorted_map {β γ : Type*} {cmp : β → β → Ordering} {cmp' : γ → γ → Ordering} {f : β → γ}
    (h : ∀ x y, cmp' (f x) (f y) = cmp x y) (values : List β) :
    toSorted cmp' (values.map f) = (toSorted cmp values).map f :=
  toSorted_map_of_mem fun x _ y _ => h x y

@[simp] lemma toSorted_singleton {β : Type*} (cmp : β → β → Ordering) (x : β) : toSorted cmp [x] = [x] := rfl

def exactlyOne {β : Type*} : List β → Option β
  | [x] => some x
  | _ => none

lemma exactlyOne_eq_some {β : Type*} {values : List β} {x : β} : exactlyOne values = some x ↔ values = [x] := by
  match values with
  | [] => simp [exactlyOne]
  | [y] => simp [exactlyOne]
  | y :: z :: rest => simp [exactlyOne]

/-- `Math.max(0, ...values)`. -/
def maxOrZero (values : List ℕ) : ℕ := values.foldl max 0

lemma maxOrZero_le_iff {values : List ℕ} {n : ℕ} : maxOrZero values ≤ n ↔ ∀ x ∈ values, x ≤ n := by
  have hfold : ∀ start, values.foldl max start ≤ n ↔ start ≤ n ∧ ∀ x ∈ values, x ≤ n := by
    induction values with
    | nil => simp
    | cons _ _ ih =>
      intro start
      rw [foldl_cons, ih, Nat.max_le, forall_mem_cons, and_assoc]
  unfold maxOrZero
  rw [hfold]
  simp

/-- `Number.MAX_SAFE_INTEGER`. -/
def MAX_SAFE_INTEGER : ℕ := 9007199254740991

/-- `Number.isSafeInteger(value) && value > 0`, of a natural number. -/
def IsPositiveSafeInteger (value : ℕ) : Prop := 0 < value ∧ value ≤ MAX_SAFE_INTEGER

instance (value : ℕ) : Decidable (IsPositiveSafeInteger value) :=
  inferInstanceAs (Decidable (_ ∧ _))

/-- White space and line terminators that `trim` removes. -/
def isWhiteSpace (c : Char) : Bool :=
  c.toNat ∈ [0x09, 0x0A, 0x0B, 0x0C, 0x0D, 0x20, 0xA0, 0x1680, 0x2028, 0x2029, 0x202F, 0x205F,
    0x3000, 0xFEFF] || (0x2000 ≤ c.toNat && c.toNat ≤ 0x200A)

/-- `value.trim()`. -/
def trim (value : String) : String :=
  String.ofList ((value.toList.dropWhile isWhiteSpace).reverse.dropWhile isWhiteSpace).reverse

/-- What was trimmed at the end still starts as it did. -/
lemma dropWhile_rdropWhile {β : Type*} {p : β → Bool} {values : List β}
    (h : values.dropWhile p = values) : (values.rdropWhile p).dropWhile p = values.rdropWhile p := by
  obtain ⟨rest, hrest⟩ := rdropWhile_prefix p values
  cases hvalues : values.rdropWhile p with
  | nil => rfl
  | cons x xs =>
    have hx : p x = false := by
      rw [hvalues] at hrest
      rw [← hrest] at h
      by_contra hpx
      rw [Bool.not_eq_false] at hpx
      have hlength := congrArg List.length h
      have hle := (dropWhile_sublist p (l := xs ++ rest)).length_le
      simp only [cons_append, dropWhile_cons, hpx, if_true, length_cons] at hlength
      omega
    rw [dropWhile_cons, hx]
    rfl

/-- Trimming twice is trimming once. -/
@[simp] theorem trim_trim (value : String) : trim (trim value) = trim value := by
  have htrim : ∀ text : String, (trim text).toList =
      (text.toList.dropWhile isWhiteSpace).rdropWhile isWhiteSpace := by
    intro text
    exact String.toList_ofList
  rw [← String.toList_inj, htrim, htrim]
  have hidem : (value.toList.dropWhile isWhiteSpace).dropWhile isWhiteSpace =
      value.toList.dropWhile isWhiteSpace := dropWhile_idempotent isWhiteSpace _
  rw [dropWhile_rdropWhile hidem, rdropWhile_idempotent]

/-- `value.length`: the number of UTF-16 code units. -/
def stringLength (value : String) : ℕ := (value.toList.flatMap codeUnits).length

end EcmaScript
