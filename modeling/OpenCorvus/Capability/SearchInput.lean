import OpenCorvus.Capability.CapabilityRef
import OpenCorvus.Util.CanonicalDigest

/-!
# The arguments of `capability_search`

The Provider sends an object whose fields may be missing.  Parsing fills in the defaults, trims the texts and
checks the bounds.  The parsed arguments are what a committed call stores, and they parse to themselves.
-/

namespace OpenCorvus.Capability

open EcmaScript

inductive CapabilityNextOwnerKind where
  | load_skill
  | call_tool
  | create_task_with_expert_squad
  | open_settings
  | unavailable
  deriving DecidableEq

def CapabilityNextOwnerKind.text : CapabilityNextOwnerKind → String
  | load_skill => "load_skill"
  | call_tool => "call_tool"
  | create_task_with_expert_squad => "create_task_with_expert_squad"
  | open_settings => "open_settings"
  | unavailable => "unavailable"

/-- `product_pillar` -/
inductive ProductPillar where
  | code
  | work
  deriving DecidableEq

def ProductPillar.text : ProductPillar → String
  | code => "code"
  | work => "work"

/-- The arguments of a call, as the Provider sends them and as a part stores them. -/
structure SearchArguments where
  queries : Option (List String)
  kinds : Option (List CapabilityKind)
  next_owner_kinds : Option (List CapabilityNextOwnerKind)
  owner_refs : Option (List String)
  exact_refs : Option (List RawCapabilityRef)
  deactivate_refs : Option (List RawCapabilityRef)
  product_pillar : Option ProductPillar
  limit : Option ℕ
  deriving DecidableEq

def optionalField {α : Type*} (key : String) (json : α → Json) (value : Option α) : List (String × Json) :=
  (value.map fun v => (key, json v)).toList

def SearchArguments.json (a : SearchArguments) : Json :=
  Json.fields <|
    optionalField "queries" (fun queries => .arr (queries.map .text)) a.queries ++
    optionalField "kinds" (fun kinds => .arr (kinds.map fun kind => .text kind.text)) a.kinds ++
    optionalField "next_owner_kinds" (fun kinds => .arr (kinds.map fun kind => .text kind.text)) a.next_owner_kinds ++
    optionalField "owner_refs" (fun refs => .arr (refs.map .text)) a.owner_refs ++
    optionalField "exact_refs" (fun refs => .arr (refs.map RawCapabilityRef.json)) a.exact_refs ++
    optionalField "deactivate_refs" (fun refs => .arr (refs.map RawCapabilityRef.json)) a.deactivate_refs ++
    optionalField "product_pillar" (fun pillar => .text pillar.text) a.product_pillar ++
    optionalField "limit" .nat a.limit

structure CapabilitySearchInput where
  queries : List String
  kinds : Option (List CapabilityKind)
  next_owner_kinds : Option (List CapabilityNextOwnerKind)
  owner_refs : Option (List TrimmedText)
  exact_refs : List CapabilityRef
  deactivate_refs : List CapabilityRef
  product_pillar : Option ProductPillar
  limit : ℕ

namespace CapabilitySearchInput

def arguments (params : CapabilitySearchInput) : SearchArguments where
  queries := some params.queries
  kinds := params.kinds
  next_owner_kinds := params.next_owner_kinds
  owner_refs := params.owner_refs.map (List.map TrimmedText.value)
  exact_refs := some (params.exact_refs.map CapabilityRef.raw)
  deactivate_refs := some (params.deactivate_refs.map CapabilityRef.raw)
  product_pillar := params.product_pillar
  limit := some params.limit

/-- Distinct leaf references, at most so many. -/
def LeafRefs (bound : ℕ) (refs : List CapabilityRef) : Prop :=
  refs.length ≤ bound ∧ (∀ ref ∈ refs, ref.kind ≠ .capability_set) ∧ (refs.map CapabilityRef.encode).Nodup

instance (bound : ℕ) (refs : List CapabilityRef) : Decidable (LeafRefs bound refs) :=
  inferInstanceAs (Decidable (_ ∧ _ ∧ _))

/-- The bounds that the schema sets. -/
structure Valid (params : CapabilitySearchInput) : Prop where
  queries : (1 ≤ params.queries.length ∧ params.queries.length ≤ 4) ∧
    ∀ query ∈ params.queries, stringLength query ≤ 500
  kinds : ∀ kinds ∈ params.kinds, kinds.length ≤ 20
  next_owner_kinds : ∀ kinds ∈ params.next_owner_kinds, kinds.length ≤ 20
  owner_refs : ∀ refs ∈ params.owner_refs, refs.length ≤ 20 ∧ ∀ ref ∈ refs, stringLength ref.value ≤ 320
  exact_refs : LeafRefs 5 params.exact_refs
  deactivate_refs : LeafRefs 10 params.deactivate_refs
  limit : 1 ≤ params.limit ∧ params.limit ≤ 5

instance (params : CapabilitySearchInput) : Decidable params.Valid :=
  decidable_of_iff (((1 ≤ params.queries.length ∧ params.queries.length ≤ 4) ∧
      ∀ query ∈ params.queries, stringLength query ≤ 500) ∧
    (∀ kinds ∈ params.kinds, kinds.length ≤ 20) ∧
    (∀ kinds ∈ params.next_owner_kinds, kinds.length ≤ 20) ∧
    (∀ refs ∈ params.owner_refs, refs.length ≤ 20 ∧ ∀ ref ∈ refs, stringLength ref.value ≤ 320) ∧
    LeafRefs 5 params.exact_refs ∧ LeafRefs 10 params.deactivate_refs ∧ 1 ≤ params.limit ∧ params.limit ≤ 5)
    ⟨fun ⟨h₁, h₂, h₃, h₄, h₅, h₆, h₇⟩ => ⟨h₁, h₂, h₃, h₄, h₅, h₆, h₇⟩,
      fun ⟨h₁, h₂, h₃, h₄, h₅, h₆, h₇⟩ => ⟨h₁, h₂, h₃, h₄, h₅, h₆, h₇⟩⟩

def parseOwnerRefs : Option (List String) → Option (Option (List TrimmedText))
  | none => some none
  | some refs => (refs.mapM TrimmedText.parse).map some

/-- `CapabilitySearchInput.parse`: `none` when the schema does not accept the arguments. -/
def parse (a : SearchArguments) : Option CapabilitySearchInput := do
  let owner_refs ← parseOwnerRefs a.owner_refs
  let exact_refs ← (a.exact_refs.getD []).mapM CapabilityRef.parse
  let deactivate_refs ← (a.deactivate_refs.getD []).mapM CapabilityRef.parse
  let params : CapabilitySearchInput :=
    { queries := a.queries.getD [""], kinds := a.kinds, next_owner_kinds := a.next_owner_kinds, owner_refs,
      exact_refs, deactivate_refs, product_pillar := a.product_pillar, limit := a.limit.getD 5 }
  if params.Valid then some params else none

lemma mapM_map_eq_some {α β : Type} {f : α → Option β} {g : β → α} (h : ∀ b, f (g b) = some b) (values : List β) :
    (values.map g).mapM f = some values := by
  induction values with
  | nil => rfl
  | cons _ _ ih => simp [h, ih]

variable {params : CapabilitySearchInput}

lemma valid_of_parse {a : SearchArguments} (h : parse a = some params) : params.Valid := by
  unfold parse at h
  obtain ⟨_, -, h⟩ := Option.bind_eq_some_iff.mp h
  obtain ⟨_, -, h⟩ := Option.bind_eq_some_iff.mp h
  obtain ⟨_, -, h⟩ := Option.bind_eq_some_iff.mp h
  dsimp only at h
  split_ifs at h with hvalid
  exact Option.some.inj h ▸ hvalid

theorem parse_arguments (h : params.Valid) : parse params.arguments = some params := by
  obtain ⟨_, _, _, owner_refs, _, _, _, _⟩ := params
  have howners : parseOwnerRefs (owner_refs.map (List.map TrimmedText.value)) = some owner_refs := by
    cases owner_refs with
    | none => rfl
    | some refs => exact congrArg (Option.map some) (mapM_map_eq_some TrimmedText.parse_value refs)
  unfold parse arguments
  simp only [howners, Option.getD_some, mapM_map_eq_some CapabilityRef.parse_raw, Option.bind_eq_bind,
    Option.bind_some]
  exact if_pos h

end CapabilitySearchInput

end OpenCorvus.Capability
