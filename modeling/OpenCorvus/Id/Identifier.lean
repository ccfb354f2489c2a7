import Mathlib.Data.Nat.Digits.Defs
import OpenCorvus.Foundation.EcmaScript
import OpenCorvus.Foundation.Transaction

/-!
# Sortable ids

The ascending ids that the backend gives to everything but Tasks: the prefix of the kind, a format
marker, the logical timestamp and the sequence as fixed-width digits to base 62, and random digits
up to the common length of all ids.  Per kind, a process keeps the last timestamp and sequence that
it has used.
-/

namespace OpenCorvus.Identifier

open Transaction

def BASE62_ALPHABET : List Char :=
  "0123456789ABCDEFGHIJKLMNOPQRSTUVWXYZabcdefghijklmnopqrstuvwxyz".toList

/-- `BASE62_ALPHABET[digit]` -/
def base62Digit (digit : ℕ) : Char := BASE62_ALPHABET.getD digit '0'

def base62 (value : ℕ) : List Char :=
  if value = 0 then ['0'] else ((Nat.digits 62 value).map base62Digit).reverse

def base62Fixed (value length : ℕ) : Except String (List Char) :=
  if length < (base62 value).length then
    .error ("Directory key overflow: " ++ String.ofList (base62 value))
  else .ok (List.replicate (length - (base62 value).length) '0' ++ base62 value)

def randomBase62 (bytes : ℕ → UInt8) (length : ℕ) : List Char :=
  (List.range length).map fun i => base62Digit ((bytes i).toNat % 62)

def MAX_LENGTH : ℕ := 24

/-- `2 ** 48 - 1` -/
def MAX_FIELD_VALUE : ℤ := 2 ^ 48 - 1

def MAX_SAFE_INTEGER : ℤ := 2 ^ 53 - 1

def COMPACT_TIMESTAMP_LENGTH : ℕ := 8

def COMPACT_TIMESTAMP_MAX : ℕ := 62 ^ COMPACT_TIMESTAMP_LENGTH - 1

def COMPACT_SEQUENCE_LENGTH : ℕ := 2

def COMPACT_SEQUENCE_MAX : ℕ := 62 ^ COMPACT_SEQUENCE_LENGTH - 1

def ASCENDING_FORMAT_MARKER : Char := 'g'

/-- The last timestamp and sequence of a kind; a kind without an id has none. -/
structure State where
  timestamp : ℕ
  sequence : ℕ

def State.next (state : Option State) (wallTimestamp : ℕ) : State :=
  match state with
  | none => ⟨wallTimestamp, 0⟩
  | some state =>
    if state.timestamp < wallTimestamp then ⟨wallTimestamp, 0⟩
    else if COMPACT_SEQUENCE_MAX < state.sequence + 1 then ⟨state.timestamp + 1, 0⟩
    else ⟨state.timestamp, state.sequence + 1⟩

/-- Create the next ascending id of a kind that is not Task. -/
def create (prefixText : String) (state : Option State) (timestamp : ℤ) (bytes : ℕ → UInt8) :
    Except String (String × State) := do
  throwWhen (timestamp < 0 ∨ MAX_SAFE_INTEGER < timestamp)
    ("ID timestamp must be a non-negative safe integer: " ++ toString timestamp)
  throwWhen (MAX_FIELD_VALUE < timestamp) ("ID timestamp exceeds the 48-bit field: " ++ toString timestamp)
  let state := State.next state timestamp.toNat
  throwWhen (COMPACT_TIMESTAMP_MAX < state.timestamp)
    ("ID timestamp exceeds compact field: " ++ toString state.timestamp)
  let fixedLength := prefixText.length + 1 + 1 + COMPACT_TIMESTAMP_LENGTH + COMPACT_SEQUENCE_LENGTH
  throwWhen (MAX_LENGTH < fixedLength + 1)
    ("ID prefix " ++ prefixText ++ " cannot fit the compact identifier contract")
  let timestampDigits ← base62Fixed state.timestamp COMPACT_TIMESTAMP_LENGTH
  let sequenceDigits ← base62Fixed state.sequence COMPACT_SEQUENCE_LENGTH
  return (String.ofList (prefixText.toList ++ '_' :: ASCENDING_FORMAT_MARKER :: timestampDigits ++
    sequenceDigits ++ randomBase62 bytes (MAX_LENGTH - fixedLength)), state)

/-- The place of a character of an id in the alphabet, without its case. -/
def primaryWeight (c : Char) : ℕ :=
  if c = '_' then 0 else if c = '-' then 1 else c.toLower.toNat

def caseWeight (c : Char) : ℕ := if c.isUpper then 1 else 0

/-- How a host with the usual locale data collates ids: by their letters without case, and by case
only between ids with the same letters. -/
@[reducible] def identifierCollation : EcmaScript.Collation where
  localeCompare := compareLex (compareOn fun id : String => id.toList.map primaryWeight)
    (compareOn fun id : String => id.toList.map caseWeight)
  trans := inferInstance

end OpenCorvus.Identifier
