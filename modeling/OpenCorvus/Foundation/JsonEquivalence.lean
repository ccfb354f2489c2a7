import OpenCorvus.Foundation.JsonText
import OpenCorvus.Foundation.StableSort

/-!
# Values up to the order of their keys

A serialisation that first puts the keys of every object in an order of its own is the same for equivalent values.
-/

namespace Json

open List

open Utf16 (Units)

/-- Equality up to the order of the keys of the objects, at every depth. -/
inductive Equivalent : Json → Json → Prop where
  | refl (value : Json) : Equivalent value value
  | symm {a b : Json} (h : Equivalent a b) : Equivalent b a
  | trans {a b c : Json} (h : Equivalent a b) (h' : Equivalent b c) : Equivalent a c
  | item (front back : List Json) {a b : Json} (h : Equivalent a b) :
    Equivalent (.arr (front ++ a :: back)) (.arr (front ++ b :: back))
  | field (front back : List (Units × Json)) (key : Units) {a b : Json} (h : Equivalent a b) :
    Equivalent (.obj (front ++ (key, a) :: back)) (.obj (front ++ (key, b) :: back))
  | keys {fields fields' : List (Units × Json)} (h : fields.Perm fields') : Equivalent (.obj fields) (.obj fields')

/-- The values that are neither arrays nor objects. -/
def isLeaf : Json → Bool
  | .arr _ | .obj _ => false
  | _ => true

/-- `f` puts the fields of every object in the order of `sort`. -/
structure Reorders (sort : List (Units × Json) → List (Units × Json)) (f : Json → Json) : Prop where
  leaf : ∀ value : Json, value.isLeaf → f value = value
  arr : ∀ items, f (.arr items) = .arr (items.map f)
  obj : ∀ fields, f (.obj fields) = .obj (sort (fields.map fun field => (field.1, f field.2)))
  perm : ∀ fields, (sort fields).Perm fields

variable {Keys : List Units → Prop} {sort : List (Units × Json) → List (Units × Json)} {f : Json → Json} {a b : Json}

lemma equivalent_arr_map {items : List Json} (front : List Json) (h : ∀ item ∈ items, Equivalent item (f item)) :
    Equivalent (.arr (front ++ items)) (.arr (front ++ items.map f)) := by
  induction items generalizing front with
  | nil => exact .refl _
  | cons item items ih =>
    have hrest := ih (front ++ [f item]) fun item hitem => h item (mem_cons_of_mem _ hitem)
    simp only [append_assoc, singleton_append] at hrest
    exact (Equivalent.item front items (h item mem_cons_self)).trans hrest

lemma equivalent_obj_map {fields : List (Units × Json)} (front : List (Units × Json))
    (h : ∀ field ∈ fields, Equivalent field.2 (f field.2)) :
    Equivalent (.obj (front ++ fields)) (.obj (front ++ fields.map fun field => (field.1, f field.2))) := by
  induction fields generalizing front with
  | nil => exact .refl _
  | cons field fields ih =>
    have hrest := ih (front ++ [(field.1, f field.2)]) fun field hfield => h field (mem_cons_of_mem _ hfield)
    simp only [append_assoc, singleton_append] at hrest
    exact (Equivalent.field front fields field.1 (h field mem_cons_self)).trans hrest

lemma Reorders.equivalent (hf : Reorders sort f) (h : Valid Keys a) : Equivalent a (f a) := by
  induction h with
  | null | bool | num | str =>
    rw [hf.leaf _ rfl]
    exact .refl _
  | arr _ ih =>
    rw [hf.arr]
    exact equivalent_arr_map [] ih
  | obj _ _ ih =>
    rw [hf.obj]
    exact (equivalent_obj_map [] ih).trans (.keys (hf.perm _).symm)

lemma valid_arr_iff {items : List Json} : Valid Keys (.arr items) ↔ ∀ item ∈ items, Valid Keys item :=
  ⟨fun h => by cases h; assumption, .arr⟩

lemma valid_obj_iff {fields : List (Units × Json)} :
    Valid Keys (.obj fields) ↔ Keys (fields.map Prod.fst) ∧ ∀ field ∈ fields, Valid Keys field.2 :=
  ⟨fun h => by cases h; exact ⟨‹_›, ‹_›⟩, fun h => .obj h.1 h.2⟩

lemma Equivalent.valid_iff (hkeys : ∀ ⦃keys keys' : List Units⦄, keys.Perm keys' → Keys keys → Keys keys')
    (h : Equivalent a b) : Valid Keys a ↔ Valid Keys b := by
  induction h with
  | refl => rfl
  | symm _ ih => exact ih.symm
  | trans _ _ ih ih' => exact ih.trans ih'
  | item _ _ _ ih => simp only [valid_arr_iff, forall_mem_append, forall_mem_cons, ih]
  | field _ _ _ _ ih => simp only [valid_obj_iff, forall_mem_append, forall_mem_cons, ih, map_append, map_cons]
  | keys hperm =>
    have hnames := hperm.map Prod.fst
    simp only [valid_obj_iff, hperm.mem_iff]
    exact and_congr_left' ⟨hkeys hnames, hkeys hnames.symm⟩

/-- An order that does not depend on the order in which the fields are given makes equivalent values equal. -/
lemma Reorders.eq_of_equivalent (hf : Reorders sort f)
    (hkeys : ∀ ⦃keys keys' : List Units⦄, keys.Perm keys' → Keys keys → Keys keys')
    (hsort : ∀ ⦃fields fields' : List (Units × Json)⦄, fields.Perm fields' → Keys (fields.map Prod.fst) →
      sort fields = sort fields') (h : Equivalent a b) (ha : Valid Keys a) : f a = f b := by
  induction h with
  | refl => rfl
  | symm h ih => exact (ih ((h.valid_iff hkeys).mpr ha)).symm
  | trans h _ ih ih' => exact (ih ha).trans (ih' ((h.valid_iff hkeys).mp ha))
  | item _ _ _ ih =>
    rw [hf.arr, hf.arr, map_append, map_append, map_cons, map_cons, ih (valid_arr_iff.mp ha _ mem_append_cons_self)]
  | field _ _ _ _ ih =>
    rw [hf.obj, hf.obj, map_append, map_append, map_cons, map_cons, ih ((valid_obj_iff.mp ha).2 _ mem_append_cons_self)]
  | keys hperm =>
    rw [hf.obj, hf.obj, hsort (hperm.map _) (by simpa [Function.comp_def] using (valid_obj_iff.mp ha).1)]

lemma Reorders.eq_of_text (hf : Reorders sort f)
    (hkeys : ∀ ⦃keys keys' : List Units⦄, keys.Perm keys' → Keys keys → Keys keys') (ha : Valid Keys a)
    (hb : Valid Keys b) (h : stringify (f a) = stringify (f b)) : f a = f b := by
  have hvalid : ∀ {value : Json}, Valid Keys value → Valid Keys (f value) :=
    fun hvalue => ((hf.equivalent hvalue).valid_iff hkeys).mp hvalue
  exact (hvalid ha).eq_of_stringify (hvalid hb) h

lemma Reorders.equivalent_of_text (hf : Reorders sort f)
    (hkeys : ∀ ⦃keys keys' : List Units⦄, keys.Perm keys' → Keys keys → Keys keys') (ha : Valid Keys a)
    (hb : Valid Keys b) (h : stringify (f a) = stringify (f b)) : Equivalent a b :=
  (hf.equivalent ha).trans (hf.eq_of_text hkeys ha hb h ▸ (hf.equivalent hb).symm)

end Json
