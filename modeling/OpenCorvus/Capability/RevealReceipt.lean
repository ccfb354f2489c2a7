import OpenCorvus.Capability.SearchInput
import OpenCorvus.Foundation.InsertionMap
import OpenCorvus.Foundation.StableSort

/-!
# Receipts of capability reveals

A reveal activates and deactivates references on top of the state that the receipts before it reduce to.  The
receipt that it stores names the state that it leads to; readers fold the receipts and check every one of them.
-/

namespace OpenCorvus.Capability

open EcmaScript Transaction
open Json (canonicalJSONValue)
open Util (canonicalDigest)

/-- `CAPABILITY_REVEAL_MAX_RESULTS` -/
def capabilityRevealMaxResults : ℕ := 5

/-- `CAPABILITY_REVEAL_MAX_ACTIVE_REFS` -/
def capabilityRevealMaxActiveRefs : ℕ := 10

/-- `CAPABILITY_REVEAL_MAX_ACTIVE_CHARS` -/
def capabilityRevealMaxActiveChars : ℕ := 32000

/-- `CAPABILITY_REVEAL_MAX_ACTIVE_TOKENS` -/
def capabilityRevealMaxActiveTokens : ℕ := 8000

def isDenseScript (c : Char) : Bool :=
  let code := c.toNat
  (0x3000 ≤ code && code ≤ 0x30ff) || (0x3400 ≤ code && code ≤ 0x4dbf) || (0x4e00 ≤ code && code ≤ 0x9fff) ||
    (0xf900 ≤ code && code ≤ 0xfaff) || (0xac00 ≤ code && code ≤ 0xd7af) || (0x1100 ≤ code && code ≤ 0x11ff) ||
    (0xff00 ≤ code && code ≤ 0xffef) || (0x20000 ≤ code && code ≤ 0x3ffff)

def tokenEstimate (text : List Char) : ℕ :=
  let dense := text.countP isDenseScript
  (8 * dense + 3 * (text.length - dense) + 6) / 12

structure NormalizedProviderToolDefinition where
  name : TrimmedText
  description : String
  input_schema : Json
  strict : Bool

namespace NormalizedProviderToolDefinition

variable (d : NormalizedProviderToolDefinition)

def json : Json :=
  Json.fields [("name", .text d.name.value), ("description", .text d.description), ("input_schema", d.input_schema),
    ("strict", .bool d.strict)]

/-- `providerToolDefinitionDigest` -/
def digest : String :=
  canonicalDigest "provider-tool-definition-v2" d.json

/-- `providerToolDefinitionChars` -/
def chars : ℕ :=
  (canonicalJSONValue d.json).length

/-- `providerToolDefinitionTokens` -/
def tokens : ℕ :=
  tokenEstimate d.name.value.toList + tokenEstimate d.description.toList +
    tokenEstimate (Utf16.decode (canonicalJSONValue d.input_schema))

end NormalizedProviderToolDefinition

inductive CorruptCapabilityReveal where
  | noReceipt (partID : String)
  | invalidReceipt (partID : String)
  | belongsToCall (partID found expected : String)
  | multipleReceipts (callID : String)
  | changedAuthority (revision : ℕ)
  | chain (expected found : ℕ)
  | activeRefBudget (revision : ℕ)
  | activeRefs (revision : ℕ)
  | activeTotals (revision : ℕ)
  | searchInput (partID : String)
  | fingerprint (partID : String)
  | payloadBudget
  | ownedByBase (providerName : String)
  | conflictingDefinitions (providerName : String)

/-- Why a commit is refused. -/
inductive CapabilityRevealConflict where
  | changedCall (callID : String)
  | occurrence (messageID : String)
  | binding
  | disappeared (partID : String)
  | notRunning (callID : String)
  | changedInput (callID : String)
  | openExecutions (callIDs : List String)
  | compareAndSwap (expected current : ℕ)
  | changedCandidate
  | immutableRequest (partID : String)

inductive RevealError where
  | corrupt (reason : CorruptCapabilityReveal)
  | conflict (reason : CapabilityRevealConflict)
  | baseDefinitionConflict (providerName : String)
  | duplicateBaseNames
  | invalidBaseDefinition
  | invalidActivation
  | invalidReceipt
  | invalidInput
  | repeatsReference (encoded : String)
  | activeRefs (size : ℕ)
  | payloadChars (chars : ℕ)
  | payloadTokens (tokens : ℕ)
  | noCallIdentity
  | outsideOccurrence (messageID : String)
  | definitionChars (encoded : String) (chars : ℕ)
  | executableMismatch (found expected : String)
  | permanentTool
  | refused (reason : String)

structure CapabilityRevealBaseDefinition where
  providerNames : List TrimmedText
  definitionDigest : String
  payloadChars : ℕ
  payloadTokens : ℕ

def compareNames {α : Type*} (name : α → TrimmedText) (left right : α) : Ordering :=
  codeUnitCompare (name left).value (name right).value

instance {α : Type*} (name : α → TrimmedText) : Std.TransCmp (compareNames name) :=
  inferInstanceAs (Std.TransCmp (compareOn fun value => (name value).value.toList.flatMap codeUnits))

def capabilityRevealBaseDefinitions (definitions : List NormalizedProviderToolDefinition) :
    Except RevealError CapabilityRevealBaseDefinition := do
  let parsed := toSorted (compareNames NormalizedProviderToolDefinition.name) definitions
  throwWhen (¬(parsed.map NormalizedProviderToolDefinition.name).Nodup) .duplicateBaseNames
  return {
    providerNames := parsed.map NormalizedProviderToolDefinition.name
    definitionDigest := canonicalDigest "capability-reveal-base-provider-tool-definitions-v2"
      (.arr (parsed.map fun d => Json.fields [("name", .text d.name.value), ("definition_digest", .text d.digest)]))
    payloadChars := parsed.foldl (fun total d => total + d.chars) 0
    payloadTokens := parsed.foldl (fun total d => total + d.tokens) 0 }

def textsJson (texts : List String) : Json := .arr (texts.map .text)

/-- What `parseBaseDefinition` accepts. -/
def CapabilityRevealBaseDefinition.Valid (base : CapabilityRevealBaseDefinition) : Prop :=
  base.providerNames.Nodup ∧
  canonicalJSONValue (textsJson (base.providerNames.map TrimmedText.value)) =
    canonicalJSONValue (textsJson ((toSorted (compareNames id) base.providerNames).map TrimmedText.value)) ∧
  Sha256.isSHA256 base.definitionDigest = true ∧
  base.payloadChars ≤ MAX_SAFE_INTEGER ∧ base.payloadTokens ≤ MAX_SAFE_INTEGER

instance (base : CapabilityRevealBaseDefinition) : Decidable base.Valid :=
  inferInstanceAs (Decidable (_ ∧ _ ∧ _ ∧ _ ∧ _))

def parseBaseDefinition (base : CapabilityRevealBaseDefinition) : Except RevealError CapabilityRevealBaseDefinition := do
  throwWhen (¬base.Valid) .invalidBaseDefinition
  return base

lemma parseBaseDefinition_eq_ok {base base' : CapabilityRevealBaseDefinition} :
    parseBaseDefinition base = .ok base' ↔ base.Valid ∧ base' = base := by
  unfold parseBaseDefinition
  rw [throwWhen_bind_eq_ok, pure_eq_ok, not_not]
  exact and_congr_right fun _ => eq_comm

lemma isSHA256_canonicalDigest (domain : String) (payload : Json) :
    Sha256.isSHA256 (canonicalDigest domain payload) = true :=
  Sha256.isSHA256_sha256 _

lemma CapabilityRevealBaseDefinition.valid_of_definitions {definitions : List NormalizedProviderToolDefinition}
    {base : CapabilityRevealBaseDefinition} (h : capabilityRevealBaseDefinitions definitions = .ok base)
    (hchars : base.payloadChars ≤ MAX_SAFE_INTEGER) (htokens : base.payloadTokens ≤ MAX_SAFE_INTEGER) :
    base.Valid := by
  unfold capabilityRevealBaseDefinitions at h
  rw [throwWhen_bind_eq_ok, pure_eq_ok, not_not] at h
  obtain ⟨hnodup, rfl⟩ := h
  refine ⟨hnodup, ?_, isSHA256_canonicalDigest _ _, hchars, htokens⟩
  have hmap : ∀ definitions : List NormalizedProviderToolDefinition,
      toSorted (compareNames id) (definitions.map NormalizedProviderToolDefinition.name) =
        (toSorted (compareNames NormalizedProviderToolDefinition.name) definitions).map
          NormalizedProviderToolDefinition.name :=
    toSorted_map fun _ _ => rfl
  have hsorted : toSorted (compareNames id)
      ((toSorted (compareNames NormalizedProviderToolDefinition.name) definitions).map
        NormalizedProviderToolDefinition.name) =
      (toSorted (compareNames NormalizedProviderToolDefinition.name) definitions).map
        NormalizedProviderToolDefinition.name := by
    rw [hmap, toSorted_idem]
  exact congrArg (fun names => canonicalJSONValue (textsJson (names.map TrimmedText.value))) hsorted.symm

structure ActivatedCapability where
  requested_ref : CapabilityRef
  executable_ref : CapabilityRef
  provider_name : TrimmedText
  definition : NormalizedProviderToolDefinition
  definition_digest : String
  payload_chars : ℕ
  payload_tokens : ℕ
  materializer_binding_digest : String

namespace ActivatedCapability

variable (a : ActivatedCapability)

def key : String := a.requested_ref.encode

/-- What the schema accepts. -/
def Valid : Prop :=
  a.requested_ref.kind ≠ .capability_set ∧
  (a.executable_ref.kind = .tool ∨ a.executable_ref.kind = .mcp_tool) ∧
  Sha256.isSHA256 a.materializer_binding_digest = true ∧
  a.definition_digest = a.definition.digest ∧ a.payload_chars = a.definition.chars ∧
  a.payload_tokens = a.definition.tokens ∧ a.provider_name = a.definition.name

instance (a : ActivatedCapability) : Decidable a.Valid :=
  inferInstanceAs (Decidable (_ ∧ _ ∧ _ ∧ _ ∧ _ ∧ _ ∧ _))

/-- `ActivatedCapability.parse` -/
def parse : Except RevealError ActivatedCapability := do
  throwWhen (¬a.Valid) .invalidActivation
  return a

def json (a : ActivatedCapability) : Json :=
  Json.fields [("requested_ref", a.requested_ref.raw.json), ("executable_ref", a.executable_ref.raw.json),
    ("provider_name", .text a.provider_name.value), ("definition", a.definition.json),
    ("definition_digest", .text a.definition_digest), ("payload_chars", .nat a.payload_chars),
    ("payload_tokens", .nat a.payload_tokens),
    ("materializer_binding_digest", .text a.materializer_binding_digest)]

lemma parse_eq_ok {a a' : ActivatedCapability} : a.parse = .ok a' ↔ a.Valid ∧ a' = a := by
  unfold parse
  rw [throwWhen_bind_eq_ok, pure_eq_ok, not_not]
  exact and_congr_right fun _ => eq_comm

end ActivatedCapability

/-- One reference of `canonicalRefs`. -/
def collectRef (values : InsertionMap String CapabilityRef) (ref : CapabilityRef) :
    Except RevealError (InsertionMap String CapabilityRef) := do
  throwWhen (values.has ref.encode = true) (.repeatsReference ref.encode)
  return values.set ref.encode ref

def canonicalRefs (refs : List CapabilityRef) : Except RevealError (List CapabilityRef) := do
  let values ← refs.foldlM collectRef .empty
  return (toSorted (fun left right => codeUnitCompare left.1 right.1) values.entries).map Prod.snd

def canonicalActivations (values : List ActivatedCapability) : Except RevealError (List ActivatedCapability) := do
  let parsed ← values.mapM ActivatedCapability.parse
  return toSorted (compareEncoded ActivatedCapability.requested_ref) parsed

/-- The JSON value of an array of references. -/
def refsJson (refs : List CapabilityRef) : Json := .arr (refs.map fun ref => ref.raw.json)

lemma canonicalRefs_eq_ok {refs sorted : List CapabilityRef} : canonicalRefs refs = .ok sorted ↔
      (refs.map CapabilityRef.encode).Nodup ∧ sorted = toSorted (compareEncoded id) refs := by
  -- The map lists the references that were passed, each under its encoding.
  have hcollect : ∀ (rest done : List CapabilityRef) (values values' : InsertionMap String CapabilityRef),
      values.entries = done.map (fun ref => (ref.encode, ref)) →
      (rest.foldlM collectRef values = .ok values' ↔ ((done ++ rest).map CapabilityRef.encode).Nodup ∧
          values'.entries = (done ++ rest).map fun ref => (ref.encode, ref)) := by
    intro rest
    induction rest with
    | nil =>
      intro done values values' hvalues
      have hnodup : (done.map CapabilityRef.encode).Nodup := by
        have h := values.nodup
        rwa [hvalues, List.map_map] at h
      rw [List.foldlM_nil, pure_eq_ok, List.append_nil, ← hvalues]
      exact ⟨fun h => ⟨hnodup, h ▸ rfl⟩, fun h => InsertionMap.ext h.2.symm⟩
    | cons ref rest ih =>
      intro done values values' hvalues
      have hkeys : values.entries.map Prod.fst = done.map CapabilityRef.encode := by
        rw [hvalues, List.map_map]
        rfl
      have happend : done ++ ref :: rest = (done ++ [ref]) ++ rest := by simp
      rw [List.foldlM_cons, collectRef]
      by_cases hhas : values.has ref.encode = true
      · have hmem : ref.encode ∈ done.map CapabilityRef.encode := hkeys ▸ InsertionMap.has_eq_true.mp hhas
        refine iff_of_false ?_ fun h => ?_
        · rw [throwWhen, if_pos hhas]
          exact fun h => by cases h
        · rw [List.map_append, List.map_cons] at h
          exact (List.nodup_append.mp h.1).2.2 _ hmem _ List.mem_cons_self rfl
      · have hset : (values.set ref.encode ref).entries =
            (done ++ [ref]).map fun ref => (ref.encode, ref) := by
          rw [InsertionMap.entries_set_of_not_has ref hhas, hvalues, List.map_append]
          rfl
        rw [throwWhen, if_neg hhas, happend]
        exact ih (done ++ [ref]) _ values' hset
  have hsorted : ∀ values : InsertionMap String CapabilityRef,
      values.entries = refs.map (fun ref => (ref.encode, ref)) →
      (toSorted (fun left right => codeUnitCompare left.1 right.1) values.entries).map Prod.snd =
        toSorted (compareEncoded id) refs := by
    intro values hvalues
    have hmap : toSorted (fun left right => codeUnitCompare left.1 right.1)
        (refs.map fun ref => (ref.encode, ref)) =
          (toSorted (compareEncoded id) refs).map fun ref => (ref.encode, ref) :=
      toSorted_map (fun _ _ => rfl) refs
    rw [hvalues, hmap, List.map_map]
    exact List.map_id _
  unfold canonicalRefs
  rw [bind_eq_ok]
  constructor
  · rintro ⟨values, hvalues, hrest⟩
    obtain ⟨hnodup, hentries⟩ := (hcollect refs [] .empty values rfl).mp hvalues
    exact ⟨hnodup, (pure_eq_ok.mp hrest).symm.trans (hsorted values hentries)⟩
  · rintro ⟨hnodup, rfl⟩
    have hnodup' : ((refs.map fun ref => (ref.encode, ref)).map Prod.fst).Nodup := by
      rwa [List.map_map]
    refine ⟨⟨refs.map fun ref => (ref.encode, ref), hnodup'⟩, ?_, pure_eq_ok.mpr (hsorted _ rfl)⟩
    exact (hcollect refs [] .empty _ rfl).mpr ⟨hnodup, rfl⟩

lemma canonicalActivations_eq_ok {values sorted : List ActivatedCapability} :
    canonicalActivations values = .ok sorted ↔ (∀ a ∈ values, a.Valid) ∧
      sorted = toSorted (compareEncoded ActivatedCapability.requested_ref) values := by
  unfold canonicalActivations
  rw [bind_eq_ok]
  have hparse : ∀ parsed, values.mapM ActivatedCapability.parse = .ok parsed ↔
      parsed = values ∧ ∀ a ∈ values, a.Valid := by
    intro parsed
    have hid : ∀ a a' : ActivatedCapability, a.parse = .ok a' → a' = id a := fun a a' h =>
      (ActivatedCapability.parse_eq_ok.mp h).2
    rw [mapM_eq_ok_iff hid, List.map_id]
    refine and_congr_right fun _ => forall₂_congr fun a _ => ?_
    exact ActivatedCapability.parse_eq_ok.trans (and_iff_left rfl)
  constructor
  · rintro ⟨parsed, hparsed, hrest⟩
    obtain ⟨rfl, hvalid⟩ := (hparse parsed).mp hparsed
    exact ⟨hvalid, (pure_eq_ok.mp hrest).symm⟩
  · rintro ⟨hvalid, rfl⟩
    exact ⟨values, (hparse values).mpr ⟨rfl, hvalid⟩, pure_eq_ok.mpr rfl⟩

end OpenCorvus.Capability
