import OpenCorvus.Foundation.Json
import OpenCorvus.Foundation.Sha256
import OpenCorvus.Foundation.Transaction

/-!
# Canonical JSON texts and digests

Facts that are compared across processes are compared by their canonical text: JSON with the keys of every object
sorted by their code units.  A digest is taken of the canonical text under a domain.
-/

namespace Json

open Utf16 (Units ofString)
open EcmaScript List

def compareCanonicalStrings (left right : Units) : Ordering :=
  compare (left.map UInt16.toNat) (right.map UInt16.toNat)

def compareKeys {β : Type} (left right : Units × β) : Ordering := compareCanonicalStrings left.1 right.1

instance {β : Type} : Std.TransCmp (compareKeys (β := β)) :=
  inferInstanceAs (Std.TransCmp (compareOn fun field : Units × β => field.1.map UInt16.toNat))

mutual

/-- `canonicalJSON`: the text of a value with the keys of every object sorted. -/
def canonicalJSONValue : Json → Units
  | .null => ofString "null"
  | .bool value => ofString (if value then "true" else "false")
  | .num text => ofString text
  | .str value => quote value
  | .arr items => ofString "[" ++ join "," (canonicalItems items) ++ ofString "]"
  | .obj fields =>
    ofString "\x7b" ++
      join "," ((toSorted compareKeys (canonicalFields fields)).map fun entry =>
        quote entry.1 ++ ofString ":" ++ entry.2) ++
      ofString "\x7d"

/-- The texts of an array's items. -/
def canonicalItems : List Json → List Units
  | [] => []
  | item :: items => canonicalJSONValue item :: canonicalItems items

def canonicalFields : List (Units × Json) → List (Units × Units)
  | [] => []
  | (key, value) :: fields => (key, canonicalJSONValue value) :: canonicalFields fields

end

mutual

/-- `JSON.parse` of the canonical text: the value with the keys of every object sorted. -/
def canonical : Json → Json
  | .null => .null
  | .bool value => .bool value
  | .num text => .num text
  | .str value => .str value
  | .arr items => .arr (canonicalAll items)
  | .obj fields => .obj (toSorted compareKeys (canonicalEntries fields))

/-- The items of an array, each with sorted keys. -/
def canonicalAll : List Json → List Json
  | [] => []
  | item :: items => canonical item :: canonicalAll items

def canonicalEntries : List (Units × Json) → List (Units × Json)
  | [] => []
  | (key, value) :: fields => (key, canonical value) :: canonicalEntries fields

end

lemma canonicalFields_eq_map (fields : List (Units × Json)) :
    canonicalFields fields = fields.map fun field => (field.1, canonicalJSONValue field.2) := by
  induction fields with
  | nil => rfl
  | cons _ _ ih => rw [canonicalFields, ih, map_cons]

lemma toSorted_toSorted {β : Type} (fields : List (Units × β)) :
    toSorted compareKeys (toSorted compareKeys fields) = toSorted compareKeys fields :=
  (pairwise_toSorted fields).insertionSort_eq

theorem canonicalJSONValue_canonical (value : Json) : canonicalJSONValue (canonical value) = canonicalJSONValue value := by
  refine @Json.rec (fun value => canonicalJSONValue (canonical value) = canonicalJSONValue value)
    (fun items => canonicalItems (canonicalAll items) = canonicalItems items)
    (fun fields => canonicalFields (canonicalEntries fields) = canonicalFields fields)
    (fun field => canonicalJSONValue (canonical field.2) = canonicalJSONValue field.2)
    rfl (fun _ => rfl) (fun _ => rfl) (fun _ => rfl) ?items ?fields rfl ?consItem rfl ?consField ?field value
  case items =>
    intro items ih
    rw [canonical, canonicalJSONValue, canonicalJSONValue, ih]
  case fields =>
    intro fields ih
    have hsort : toSorted compareKeys (canonicalFields (toSorted compareKeys (canonicalEntries fields))) =
        toSorted compareKeys (canonicalFields fields) := by
      have hmap : ∀ entries : List (Units × Json), toSorted compareKeys (canonicalFields entries) =
          (toSorted compareKeys entries).map fun field => (field.1, canonicalJSONValue field.2) := by
        intro entries
        rw [canonicalFields_eq_map]
        exact toSorted_map (fun _ _ => rfl) entries
      rw [hmap, toSorted_toSorted, ← hmap, ih]
    rw [canonical, canonicalJSONValue, canonicalJSONValue, hsort]
  case consItem =>
    intro item items hitem hitems
    rw [canonicalAll, canonicalItems, canonicalItems, hitem, hitems]
  case consField =>
    rintro ⟨_, _⟩ _ hfield hfields
    simp only [canonicalEntries, canonicalFields, hfield, hfields]
  case field =>
    intro key value ih
    exact ih

def field? (key : String) : Json → Option Json
  | .obj fields => (fields.find? fun field => field.1 = ofString key).map Prod.snd
  | _ => none

/-- `json_type(value) = 'object'`. -/
def isObject : Json → Bool
  | .obj _ => true
  | _ => false

def isText (text : String) : Json → Bool
  | .str units => units = ofString text
  | _ => false

def isNumber (text : String) : Json → Bool
  | .num found => found = text
  | _ => false

def hasOnly (keys : List String) : Json → Bool
  | .obj fields => fields.all fun field => keys.any fun key => field.1 = ofString key
  | _ => false

mutual

/-- `String(value)` -/
def toText : Json → Units
  | .null => ofString "null"
  | .bool value => ofString (if value then "true" else "false")
  | .num text => ofString text
  | .str value => value
  | .arr items => join "," (itemTexts items)
  | .obj _ => ofString "[object Object]"

/-- The texts of an array's items, of which `null` has none. -/
def itemTexts : List Json → List Units
  | [] => []
  | .null :: items => [] :: itemTexts items
  | item :: items => toText item :: itemTexts items

end

/-- `String(value)` of a field that may be missing. -/
def string : Option Json → Units
  | none => ofString "undefined"
  | some value => toText value

def truthy : Option Json → Bool
  | none | some .null | some (.bool false) => false
  | some (.num text) => text ≠ "0"
  | some (.str value) => value ≠ []
  | _ => true

end Json

namespace OpenCorvus.Util

open Utf16 (ofString)
open Json

def digestBytes (domain : String) (payload : Json) : Utf16.Units :=
  canonicalJSONValue (Json.fields [("domain", .text domain), ("payload", payload)])

/-- `canonicalDigestSource(domain, payload).sha256` -/
def canonicalDigest (domain : String) (payload : Json) : String :=
  Sha256.sha256 (Utf16.toUtf8 (digestBytes domain payload))

lemma canonicalDigest_canonical (domain : String) (payload : Json) :
    canonicalDigest domain payload.canonical = canonicalDigest domain payload := by
  have hfields : canonicalFields [(ofString "domain", Json.text domain), (ofString "payload", payload.canonical)] =
      canonicalFields [(ofString "domain", Json.text domain), (ofString "payload", payload)] := by
    simp only [canonicalFields_eq_map, List.map_cons, List.map_nil, canonicalJSONValue_canonical]
  have hbytes : digestBytes domain payload.canonical = digestBytes domain payload := by
    unfold digestBytes Json.fields
    rw [List.map_cons, List.map_cons, List.map_nil, List.map_cons, List.map_cons, List.map_nil, canonicalJSONValue,
      canonicalJSONValue, hfields]
  rw [canonicalDigest, hbytes, canonicalDigest]

end OpenCorvus.Util
