import OpenCorvus.Foundation.EcmaScript
import OpenCorvus.Foundation.Utf16

/-!
# JSON texts

JSON values with the source language's strings, and their serialisation: in the order of their keys
as `JSON.stringify` writes them, or with the keys of every object sorted.
-/

inductive Json where
  | null
  | bool (value : Bool)
  | num (text : String)
  | str (value : Utf16.Units)
  | arr (items : List Json)
  | obj (fields : List (Utf16.Units × Json))

namespace Json

open Utf16 (Units ofString isHigh isLow)

/-- A natural number. -/
def nat (value : ℕ) : Json :=
  .num (toString value)

/-- A text given as a literal or an identifier. -/
def text (value : String) : Json :=
  .str (ofString value)

/-- A value that may be `null`. -/
def nullable {α : Type*} (json : α → Json) : Option α → Json
  | none => .null
  | some value => json value

/-- An object with the keys of a literal. -/
def fields (entries : List (String × Json)) : Json :=
  .obj (entries.map fun entry => (ofString entry.1, entry.2))

/-- A lowercase hexadecimal digit of a code unit. -/
def hexUnit (value : ℕ) : UInt16 :=
  UInt16.ofNat (if value < 10 then 0x30 + value else 0x57 + value)

def escapeUnit (unit : UInt16) : Units :=
  ofString "\\u" ++ ([12, 8, 4, 0] : List ℕ).map fun shift => hexUnit ((unit.toNat >>> shift) % 16)

def quoteUnit (unit : UInt16) : Units :=
  if unit = 0x22 then ofString "\\\""
  else if unit = 0x5C then ofString "\\\\"
  else if unit = 0x08 then ofString "\\b"
  else if unit = 0x0C then ofString "\\f"
  else if unit = 0x0A then ofString "\\n"
  else if unit = 0x0D then ofString "\\r"
  else if unit = 0x09 then ofString "\\t"
  else if unit.toNat < 0x20 then escapeUnit unit
  else [unit]

def quoteUnits : Units → Units
  | [] => []
  | [unit] => if isHigh unit || isLow unit then escapeUnit unit else quoteUnit unit
  | unit :: next :: units =>
    if isHigh unit then
      if isLow next then unit :: next :: quoteUnits units
      else escapeUnit unit ++ quoteUnits (next :: units)
    else if isLow unit then escapeUnit unit ++ quoteUnits (next :: units)
    else quoteUnit unit ++ quoteUnits (next :: units)

/-- `JSON.stringify` of a string. -/
def quote (value : Units) : Units :=
  ofString "\"" ++ quoteUnits value ++ ofString "\""

def join (separator : String) (texts : List Units) : Units :=
  List.flatten (texts.intersperse (ofString separator))

mutual

/-- `JSON.stringify`. -/
def stringify : Json → Units
  | .null => ofString "null"
  | .bool value => ofString (if value then "true" else "false")
  | .num text => ofString text
  | .str value => quote value
  | .arr items => ofString "[" ++ join "," (stringifyItems items) ++ ofString "]"
  | .obj fields => ofString "\x7b" ++ join "," (stringifyFields fields) ++ ofString "\x7d"

/-- The texts of an array's items. -/
def stringifyItems : List Json → List Units
  | [] => []
  | item :: items => stringify item :: stringifyItems items

/-- The texts of an object's fields. -/
def stringifyFields : List (Units × Json) → List Units
  | [] => []
  | (key, value) :: fields => (quote key ++ ofString ":" ++ stringify value) :: stringifyFields fields

end

def keyCompare [EcmaScript.Collation] (left right : Units × Units) : Ordering :=
  EcmaScript.localeCompare (String.ofList (Utf16.decode left.1)) (String.ofList (Utf16.decode right.1))

variable [EcmaScript.Collation]

mutual

def stableJSON : Json → Units
  | .null => ofString "null"
  | .bool value => ofString (if value then "true" else "false")
  | .num text => ofString text
  | .str value => quote value
  | .arr items => ofString "[" ++ join "," (stableItems items) ++ ofString "]"
  | .obj fields =>
    ofString "\x7b" ++
      join "," ((EcmaScript.toSorted keyCompare (stableFields fields)).map fun entry =>
        quote entry.1 ++ ofString ":" ++ entry.2) ++
      ofString "\x7d"

/-- The texts of an array's items. -/
def stableItems : List Json → List Units
  | [] => []
  | item :: items => stableJSON item :: stableItems items

def stableFields : List (Units × Json) → List (Units × Units)
  | [] => []
  | (key, value) :: fields => (key, stableJSON value) :: stableFields fields

end

end Json
