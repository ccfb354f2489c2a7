import OpenCorvus.Foundation.Json
import OpenCorvus.Foundation.Transaction

/-!
# References to capabilities

A capability is named by its kind, its source, its owner and a local name.  References are compared by their
encoded text, in which the two names are URI components.
-/

namespace OpenCorvus.Capability

open EcmaScript

/-- A text as `z.string().trim().min(1)` answers it. -/
structure TrimmedText where
  value : String
  trimmed : trim value = value
  nonempty : value ≠ ""
  deriving DecidableEq

/-- `z.string().trim().min(1)` -/
def TrimmedText.parse (raw : String) : Option TrimmedText :=
  if h : trim raw ≠ "" then some { value := trim raw, trimmed := trim_trim raw, nonempty := h } else none

@[simp] lemma TrimmedText.parse_value (text : TrimmedText) : TrimmedText.parse text.value = some text := by
  obtain ⟨_, htrimmed, hnonempty⟩ := text
  unfold TrimmedText.parse
  simp [htrimmed, hnonempty]

inductive CapabilityKind where
  | capability_set
  | skill
  | tool
  | mcp_server
  | mcp_tool
  | mcp_prompt
  | mcp_resource
  | expert_squad
  | mission_skill
  deriving DecidableEq

def CapabilityKind.text : CapabilityKind → String
  | capability_set => "capability_set"
  | skill => "skill"
  | tool => "tool"
  | mcp_server => "mcp_server"
  | mcp_tool => "mcp_tool"
  | mcp_prompt => "mcp_prompt"
  | mcp_resource => "mcp_resource"
  | expert_squad => "expert_squad"
  | mission_skill => "mission_skill"

inductive CapabilitySource where
  | platform
  | project
  | package
  deriving DecidableEq

def CapabilitySource.text : CapabilitySource → String
  | platform => "platform"
  | project => "project"
  | package => "package"

/-- A reference before it was parsed. -/
structure RawCapabilityRef where
  kind : CapabilityKind
  source : CapabilitySource
  owner_ref : String
  local_ref : String
  deriving DecidableEq

structure CapabilityRef where
  kind : CapabilityKind
  source : CapabilitySource
  owner_ref : TrimmedText
  local_ref : TrimmedText

namespace CapabilityRef

/-- `CapabilityRef.parse` -/
def parse (raw : RawCapabilityRef) : Option CapabilityRef := do
  let owner_ref ← TrimmedText.parse raw.owner_ref
  let local_ref ← TrimmedText.parse raw.local_ref
  return { kind := raw.kind, source := raw.source, owner_ref, local_ref }

/-- A parsed reference as it is stored. -/
def raw (ref : CapabilityRef) : RawCapabilityRef where
  kind := ref.kind
  source := ref.source
  owner_ref := ref.owner_ref.value
  local_ref := ref.local_ref.value

@[simp] lemma parse_raw (ref : CapabilityRef) : parse ref.raw = some ref := by
  simp [parse, raw]

/-- The characters that `encodeURIComponent` keeps. -/
def isUnreserved (byte : UInt8) : Bool :=
  (0x30 ≤ byte && byte ≤ 0x39) || (0x41 ≤ byte && byte ≤ 0x5A) || (0x61 ≤ byte && byte ≤ 0x7A) ||
    byte ∈ ([0x2D, 0x5F, 0x2E, 0x21, 0x7E, 0x2A, 0x27, 0x28, 0x29] : List UInt8)

def upperHexDigit (value : ℕ) : Char :=
  Char.ofNat (if value < 10 then 0x30 + value else 0x37 + value)

def encodeURIComponent (text : String) : String :=
  String.ofList <| (Utf8.encode text.toList).flatMap fun byte =>
    if isUnreserved byte then [Char.ofNat byte.toNat]
    else ['%', upperHexDigit (byte.toNat / 16), upperHexDigit (byte.toNat % 16)]

/-- `CapabilityRefCodec.encode` -/
def encode (ref : CapabilityRef) : String :=
  String.intercalate ":" ["capability", ref.kind.text, ref.source.text, encodeURIComponent ref.owner_ref.value,
    encodeURIComponent ref.local_ref.value]

end CapabilityRef

def RawCapabilityRef.json (ref : RawCapabilityRef) : Json :=
  Json.fields [("kind", .text ref.kind.text), ("source", .text ref.source.text), ("owner_ref", .text ref.owner_ref),
    ("local_ref", .text ref.local_ref)]

def compareEncoded {α : Type*} (ref : α → CapabilityRef) (left right : α) : Ordering :=
  codeUnitCompare (ref left).encode (ref right).encode

instance {α : Type*} (ref : α → CapabilityRef) : Std.TransCmp (compareEncoded ref) :=
  inferInstanceAs (Std.TransCmp (compareOn fun value => (ref value).encode.toList.flatMap codeUnits))

end OpenCorvus.Capability
