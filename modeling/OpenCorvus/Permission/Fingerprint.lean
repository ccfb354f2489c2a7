import Mathlib.Algebra.GroupWithZero.Nat
import OpenCorvus.Foundation.JsonEquivalence

/-!
# The text of a fingerprint

`stable` sorts the keys of every object by `localeCompare`, for which different keys may be equal.  Such keys stay in
the order in which they are given, unless they are array indexes, which an object always lists first.
-/

namespace OpenCorvus.Permission

open EcmaScript Json List

open Utf16 (Units ofString)

/-- The number of a key that is an array index. -/
def arrayIndex (key : Units) : Option ℕ :=
  let n := key.foldl (fun sum unit => sum * 10 + (unit.toNat - 0x30)) 0
  if n < 2 ^ 32 - 1 ∧ ofString (toString n) = key then some n else none

def compareIndexes : Units × Json → Units × Json → Ordering := compareOn fun field => (arrayIndex field.1).getD 0

/-- The fields of `Object.fromEntries(entries)`, in the order in which the object lists them. -/
def fromEntries (entries : List (Units × Json)) : List (Units × Json) :=
  toSorted compareIndexes (entries.filter fun entry => (arrayIndex entry.1).isSome) ++
    entries.filter fun entry => (arrayIndex entry.1).isNone

variable (localeCompare : Units → Units → Ordering)

def compareEntries (left right : Units × Json) : Ordering := localeCompare left.1 right.1

mutual

def stable : Json → Json
  | .arr items => .arr (stableAll items)
  | .obj fields => .obj (fromEntries (toSorted (compareEntries localeCompare) (stableEntries fields)))
  | value => value

def stableAll : List Json → List Json
  | [] => []
  | item :: items => stable item :: stableAll items

def stableEntries : List (Units × Json) → List (Units × Json)
  | [] => []
  | (key, value) :: fields => (key, stable value) :: stableEntries fields

end

/-- What `fingerprint` and `sha256` hash of a value. -/
def fingerprintText (value : Json) : Units := stringify (stable localeCompare value)

/-- No two keys of an object that are not array indexes are equal for `localeCompare`. -/
def Untied (keys : List Units) : Prop :=
  keys.Nodup ∧ ∀ x ∈ keys, ∀ y ∈ keys, arrayIndex x = none → arrayIndex y = none → localeCompare x y = .eq → x = y

variable {localeCompare} {fields fields' : List (Units × Json)} {a : Json}

lemma eq_of_arrayIndex {key : Units} {n : ℕ} (h : arrayIndex key = some n) : ofString (toString n) = key := by
  unfold arrayIndex at h
  dsimp only at h
  split_ifs at h with hindex
  cases h
  exact hindex.2

instance : Std.TransCmp compareIndexes :=
  inferInstanceAs (Std.TransCmp (compareOn fun field : Units × Json => (arrayIndex field.1).getD 0))

lemma fromEntries_perm (entries : List (Units × Json)) : (fromEntries entries).Perm entries := by
  have hnone : ∀ entry : Units × Json, (arrayIndex entry.1).isNone = !(arrayIndex entry.1).isSome :=
    fun entry => by cases arrayIndex entry.1 <;> rfl
  simp only [fromEntries, hnone]
  exact ((toSorted_perm _ _).append_right _).trans (filter_append_perm _ entries)

lemma reorders_stable : Reorders (fun fields => fromEntries (toSorted (compareEntries localeCompare) fields))
    (stable localeCompare) where
  leaf value h := by cases value <;> first | rfl | cases h
  arr items := by
    have hitems : stableAll localeCompare items = items.map (stable localeCompare) := by
      induction items with
      | nil => rfl
      | cons _ _ ih => rw [stableAll, ih, map_cons]
    rw [stable, hitems]
  obj fields := by
    have hfields : stableEntries localeCompare fields = fields.map fun field => (field.1, stable localeCompare field.2) := by
      induction fields with
      | nil => rfl
      | cons _ _ ih => rw [stableEntries, ih, map_cons]
    rw [stable, hfields]
  perm fields := (fromEntries_perm _).trans (toSorted_perm _ fields)

lemma Untied.perm {keys keys' : List Units} (hperm : keys.Perm keys') (h : Untied localeCompare keys) :
    Untied localeCompare keys' := by
  refine ⟨hperm.nodup_iff.mp h.1, fun x hx y hy => ?_⟩
  exact h.2 x (hperm.mem_iff.mpr hx) y (hperm.mem_iff.mpr hy)

variable [Std.TransCmp localeCompare]

instance : Std.TransCmp (compareEntries localeCompare) where
  eq_swap {a b} := @Std.OrientedCmp.eq_swap _ localeCompare _ a.1 b.1
  isLE_trans {a b c} := @Std.TransCmp.isLE_trans _ localeCompare _ a.1 b.1 c.1

/-- Untied keys have one order. -/
lemma fromEntries_toSorted_eq (hperm : fields.Perm fields') (h : Untied localeCompare (fields.map Prod.fst)) :
    fromEntries (toSorted (compareEntries localeCompare) fields) =
      fromEntries (toSorted (compareEntries localeCompare) fields') := by
  have hkey : ∀ x ∈ fields, ∀ y ∈ fields, x.1 = y.1 → x = y := fun _ hx _ hy => inj_on_of_nodup_map h.1 hx hy
  have hsorted := ((toSorted_perm (compareEntries localeCompare) fields).trans hperm).trans
    (toSorted_perm (compareEntries localeCompare) fields').symm
  refine congrArg₂ (· ++ ·) (toSorted_eq_of_perm (hsorted.filter _) fun x hx y hy heq => ?_) ?_
  · simp only [mem_filter, mem_toSorted] at hx hy
    obtain ⟨n, hn⟩ := Option.isSome_iff_exists.mp hx.2
    obtain ⟨m, hm⟩ := Option.isSome_iff_exists.mp hy.2
    have hnumbers : n = m := by simpa [compareIndexes, compareOn, hn, hm] using heq
    exact hkey x hx.1 y hy.1 (by rw [← eq_of_arrayIndex hn, hnumbers, eq_of_arrayIndex hm])
  · refine (hsorted.filter _).eq_of_pairwise (fun x y hx hy hxy hyx => ?_) ((pairwise_toSorted fields).filter _)
      ((pairwise_toSorted fields').filter _)
    simp only [mem_filter, mem_toSorted, Option.isNone_iff_eq_none] at hx hy
    have hy' := hperm.mem_iff.mpr hy.1
    exact hkey x hx.1 y hy' (h.2 _ (mem_map_of_mem hx.1) _ (mem_map_of_mem hy') hx.2 hy.2
      (Std.OrientedCmp.isLE_antisymm hxy hyx))

omit [Std.TransCmp localeCompare] in
/-- Tied fields are listed as they are given. -/
lemma pair_sublist_fromEntries {x y : Units × Json} (h : [x, y].Sublist fields) (hx : arrayIndex x.1 = none)
    (hy : arrayIndex y.1 = none) (heq : localeCompare x.1 y.1 = .eq) :
    [x, y].Sublist (fromEntries (toSorted (compareEntries localeCompare) fields)) := by
  have hle : (compareEntries localeCompare x y).isLE := by simp [compareEntries, heq]
  have hsorted := (pair_sublist_toSorted h hle).filter
    fun entry => (arrayIndex entry.1).isNone
  simp only [filter_cons, hx, hy, Option.isNone_none, if_true, filter_nil] at hsorted
  exact hsorted.trans (sublist_append_right _ _)

/-- A value that has one text with every equivalent value has no ties. -/
lemma valid_untied (ha : Valid Nodup a) (h : ∀ b, Equivalent a b → stable localeCompare a = stable localeCompare b) :
    Valid (Untied localeCompare) a := by
  have hstable : Reorders _ (stable localeCompare) := reorders_stable
  induction ha with
  | null | bool | num | str => constructor <;> assumption
  | arr _ ih =>
    refine .arr fun item hitem => ih item hitem fun b hb => ?_
    obtain ⟨front, back, rfl⟩ := append_of_mem hitem
    simpa [hstable.arr] using h _ (.item front back hb)
  | @obj fields hkeys _ ih =>
    refine .obj ⟨hkeys, fun x hx y hy hxnone hynone heq => ?_⟩ fun field hfield => ih field hfield fun b hb => ?_
    · obtain ⟨left, hleft, rfl⟩ := mem_map.mp hx
      obtain ⟨right, hright, rfl⟩ := mem_map.mp hy
      by_contra hne
      have hpair := pair_sublist_or hleft hright fun heq => hne (congrArg Prod.fst heq)
      have hreverse := h _ (.keys fields.reverse_perm.symm)
      rw [hstable.obj, hstable.obj, map_reverse, Json.obj.injEq] at hreverse
      have hnodup : (fields.map fun field => (field.1, stable localeCompare field.2)).Nodup :=
        .of_map Prod.fst (by simpa [Function.comp_def] using hkeys)
      -- The reversed object lists tied fields the other way round.
      have hsame : ∀ x y, [x, y].Sublist fields → arrayIndex x.1 = none → arrayIndex y.1 = none →
          localeCompare x.1 y.1 = .eq → x.1 = y.1 := by
        intro x y hxy hx hy heq
        replace hxy := hxy.map fun field => (field.1, stable localeCompare field.2)
        have hyx := pair_sublist_fromEntries hxy.reverse hy hx (Std.OrientedCmp.eq_symm heq)
        rw [← hreverse] at hyx
        have hlisted := pair_sublist_fromEntries hxy hx hy heq
        exact (Prod.mk.inj (eq_of_pair_sublist_of_nodup ((hstable.perm _).nodup_iff.mpr hnodup) hlisted hyx)).1
      rcases hpair with hpair | hpair
      · exact hne (hsame _ _ hpair hxnone hynone heq)
      · exact hne (hsame _ _ hpair hynone hxnone (Std.OrientedCmp.eq_symm heq)).symm
    · obtain ⟨front, back, rfl⟩ := append_of_mem hfield
      have hsame := h _ (.field front back field.1 hb)
      rw [hstable.obj, hstable.obj, Json.obj.injEq] at hsame
      have hperm := (hstable.perm _).symm.trans (hsame ▸ hstable.perm _)
      simp only [map_append, map_cons, perm_append_left_iff] at hperm
      have hfields := (perm_append_right_iff _).mp (show [_] ++ _ ~ [_] ++ _ from hperm)
      simpa [eq_comm] using hfields

theorem fingerprintText_iff (ha : Valid Nodup a) :
    (∀ b, Valid Nodup b → (fingerprintText localeCompare a = fingerprintText localeCompare b ↔ Equivalent a b)) ↔
      Valid (Untied localeCompare) a := by
  have hnodup : ∀ ⦃keys keys' : List Units⦄, keys.Perm keys' → keys.Nodup → keys'.Nodup := fun _ _ h => h.nodup_iff.mp
  refine ⟨fun h => valid_untied ha fun b hab => ?_, fun h b hb => ?_⟩
  · have hb := (hab.valid_iff hnodup).mp ha
    exact reorders_stable.eq_of_text hnodup ha hb ((h b hb).mpr hab)
  · refine ⟨reorders_stable.equivalent_of_text hnodup ha hb, fun hab => congrArg stringify ?_⟩
    exact reorders_stable.eq_of_equivalent (fun _ _ => Untied.perm) (fun _ _ => fromEntries_toSorted_eq) hab h

def decompose (key : Units) : Units := key.flatMap fun unit => if unit = 0xE9 then [0x65, 0x301] else [unit]

/-- A host for which a letter with an accent and its two parts are equal. -/
def canonicalCompare : Units → Units → Ordering := compareOn fun key => (decompose key).map UInt16.toNat

instance : Std.TransCmp canonicalCompare :=
  inferInstanceAs (Std.TransCmp (compareOn fun key => (decompose key).map UInt16.toNat))

theorem fingerprintText_iff_untied : (∀ b, Valid Nodup b →
      (fingerprintText canonicalCompare (Json.fields [("b", .bool true), ("a", .null)]) = fingerprintText canonicalCompare b ↔
        Equivalent (Json.fields [("b", .bool true), ("a", .null)]) b)) ↔
    Valid (Untied canonicalCompare) (Json.fields [("b", .bool true), ("a", .null)]) := by
  refine fingerprintText_iff (valid_fields (by decide) ?_)
  simp [Valid.null, Valid.bool]

/-- The two orders of two tied keys. -/
theorem not_fingerprintText_iff_tied : ¬(fingerprintText canonicalCompare (Json.fields [("é", .num "1"), ("e\u0301", .num "2")]) =
      fingerprintText canonicalCompare (Json.fields [("e\u0301", .num "2"), ("é", .num "1")]) ↔
    Equivalent (Json.fields [("é", .num "1"), ("e\u0301", .num "2")]) (Json.fields [("e\u0301", .num "2"), ("é", .num "1")])) := by
  intro h
  exact absurd (h.mpr (.keys (.swap ..))) (by decide +kernel)

end OpenCorvus.Permission
