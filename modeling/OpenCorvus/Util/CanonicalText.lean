import OpenCorvus.Foundation.JsonEquivalence
import OpenCorvus.Util.CanonicalDigest

/-!
# The canonical text as a key

Two values have one canonical text exactly when they are equal up to the order of the keys of their objects.
-/

namespace Json

open EcmaScript List

open Utf16 (Units ofString)

variable {a b : Json}

lemma eq_of_compareCanonicalStrings {left right : Units} (h : compareCanonicalStrings left right = .eq) : left = right :=
  map_injective_iff.mpr (fun _ _ => UInt16.toNat_inj.mp) (Std.LawfulEqCmp.eq_of_compare h)

/-- Distinct keys have one order. -/
lemma toSorted_compareKeys_eq {β : Type} {fields fields' : List (Units × β)} (hperm : fields.Perm fields')
    (hkeys : (fields.map Prod.fst).Nodup) : toSorted compareKeys fields = toSorted compareKeys fields' :=
  toSorted_eq_of_perm hperm fun _ hx _ hy h => inj_on_of_nodup_map hkeys hx hy (eq_of_compareCanonicalStrings h)

lemma reorders_canonical : Reorders (toSorted compareKeys) canonical where
  leaf value h := by cases value <;> first | rfl | cases h
  arr items := by
    have hitems : canonicalAll items = items.map canonical := by
      induction items with
      | nil => rfl
      | cons _ _ ih => rw [canonicalAll, ih, map_cons]
    rw [canonical, hitems]
  obj fields := by
    have hfields : canonicalEntries fields = fields.map fun field => (field.1, canonical field.2) := by
      induction fields with
      | nil => rfl
      | cons _ _ ih => rw [canonicalEntries, ih, map_cons]
    rw [canonical, hfields]
  perm := toSorted_perm compareKeys

lemma canonicalItems_eq_map (items : List Json) : canonicalItems items = items.map canonicalJSONValue := by
  induction items with
  | nil => rfl
  | cons _ _ ih => rw [canonicalItems, ih, map_cons]

lemma stringify_canonical (h : Valid Nodup a) : stringify (canonical a) = canonicalJSONValue a := by
  induction h with
  | null | bool | num | str => rfl
  | arr _ ih =>
    rw [reorders_canonical.arr, stringify, stringifyItems_eq_map, map_map, canonicalJSONValue, canonicalItems_eq_map,
      map_congr_left (f := stringify ∘ canonical) ih]
  | @obj fields _ _ ih =>
    have htext : (toSorted compareKeys (canonicalFields fields)).map
        (fun entry => quote entry.1 ++ ofString ":" ++ entry.2) =
          (toSorted compareKeys (fields.map fun field => (field.1, canonical field.2))).map stringifyField := by
      have hmap : ∀ {β : Type} (g : Json → β), toSorted compareKeys (fields.map fun field => (field.1, g field.2)) =
          (toSorted compareKeys fields).map fun field => (field.1, g field.2) :=
        fun g => toSorted_map (fun _ _ => rfl) fields
      rw [canonicalFields_eq_map, hmap, hmap, map_map, map_map]
      refine map_congr_left fun field hfield => ?_
      simp only [Function.comp_apply, stringifyField, ih field (mem_toSorted.mp hfield)]
    rw [reorders_canonical.obj, stringify, stringifyFields_eq_map, ← htext, canonicalJSONValue]

theorem canonicalJSONValue_eq_iff (ha : Valid Nodup a) (hb : Valid Nodup b) :
    canonicalJSONValue a = canonicalJSONValue b ↔ Equivalent a b := by
  rw [← stringify_canonical ha, ← stringify_canonical hb]
  refine ⟨reorders_canonical.equivalent_of_text (fun _ _ hperm => hperm.nodup_iff.mp) ha hb, fun h => ?_⟩
  rw [reorders_canonical.eq_of_equivalent (fun _ _ hperm => hperm.nodup_iff.mp)
    (fun _ _ hperm => toSorted_compareKeys_eq hperm) h ha]

/-- Two orders of the keys of one object. -/
theorem canonicalJSONValue_eq_iff_swapped :
    canonicalJSONValue (fields [("b", .null), ("a", .arr [.bool true])]) =
        canonicalJSONValue (fields [("a", .arr [.bool true]), ("b", .null)]) ↔
      Equivalent (fields [("b", .null), ("a", .arr [.bool true])])
        (fields [("a", .arr [.bool true]), ("b", .null)]) := by
  refine canonicalJSONValue_eq_iff (valid_fields (by decide) ?_) (valid_fields (by decide) ?_) <;>
    simp [valid_arr_iff, Valid.bool, Valid.null]

end Json
