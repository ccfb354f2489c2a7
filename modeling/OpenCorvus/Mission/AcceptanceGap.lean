import OpenCorvus.Engine.TaskLifecycle

/-!
# Mission acceptance gaps

A Mission that resumes a terminal Task records what is still missing: a list of acceptance criteria, each open,
accepted, or irreducibly blocked, with the locators of the evidence that was read for it.  A locator serves one
evidence role of one criterion.

Parsing trims the texts a reviewer writes and checks the record.  The spelling of a locator is left to its own
schema, and a repair action is represented by its digest, which is all that a later revision reads.
-/

namespace OpenCorvus.Mission

open Engine EcmaScript

inductive LedgerError where
  /-- The ledger moved on since the caller read it. -/
  | conflict (taskID : String) (expectedArtifactID currentArtifactID : Option String) (message : String)
  /-- A gap breaks the integrity of the ledger. -/
  | gapIntegrity (taskID message : String)
  /-- A value does not parse under the named schema. -/
  | invalid (schema : String)
  /-- The package revision binding of a Task is missing or ambiguous. -/
  | packageRevisionBinding (message taskID : String) (artifactCount : ℕ)
  /-- An error of the engine. -/
  | engine (error : EngineError)

inductive PackageScope where
  | builtIn
  | project
  | global
deriving DecidableEq

structure ExpertSquadPackageRevisionBinding where
  scope : PackageScope
  projectID : Option String
  packageNamespace : String
  id : String
  version : String
  packageDigest : String
deriving DecidableEq

/-- `/^[a-f0-9]{64}$/` -/
def isSHA256 (value : String) : Bool :=
  value.toList.length = 64 ∧ value.toList.all fun c => ('a' ≤ c ∧ c ≤ 'f') ∨ ('0' ≤ c ∧ c ≤ '9')

/-- The binding parses under `ExpertSquadPackageRevisionBindingSchema`. -/
def ExpertSquadPackageRevisionBinding.isValid (binding : ExpertSquadPackageRevisionBinding) : Bool :=
  binding.projectID ≠ some "" ∧ binding.packageNamespace ≠ "" ∧ binding.id ≠ "" ∧
    binding.version ≠ "" ∧ isSHA256 binding.packageDigest ∧
    (binding.scope = .project ↔ binding.projectID ≠ none)

structure TaskArtifactSnapshotIdentity where
  projectID : String
  taskID : String
  snapshotID : String
  manifestSHA256 : String
deriving DecidableEq

/-- The exact Artifact that was read.  Two locators are one exactly when they serialise alike
(`artifactReadLocatorKey`), that is, when their fields agree. -/
inductive ArtifactReadLocator where
  | engineArtifact (artifactID : String) (catalogRevision : ℕ) (expectedSHA256 : String)
  | taskArtifactSnapshot (snapshot : TaskArtifactSnapshotIdentity)
  | taskArtifactResource (snapshot : TaskArtifactSnapshotIdentity) (tree path mediaType : String)
      (bytes : ℕ) (sha256 : String)
deriving DecidableEq

inductive EvidenceRoleField where
  | observation
  | repair
  | resolution
  | invalidating
  | irreducibleBlocker
deriving DecidableEq

def evidenceRoleFields : List EvidenceRoleField :=
  [.observation, .repair, .resolution, .invalidating, .irreducibleBlocker]

lemma mem_evidenceRoleFields (role : EvidenceRoleField) : role ∈ evidenceRoleFields := by
  cases role <;> decide

inductive MissionAcceptanceCriterionDisposition where
  | failed
  | unresolved
  | staleEvidence
deriving DecidableEq

inductive MissionAcceptanceCriterionResponsibility where
  | workflowNode (workflowID workflowNodeID : String)
  | directDispatch (packageRevision : ExpertSquadPackageRevisionBinding) (agentID dispatchLineageID : String)
deriving DecidableEq

/-- The repair that an open criterion asks for. -/
structure MissionAcceptanceRepairAction where
  operation : String
  target : String
  expectedEvidenceKind : String
  /-- The digest of the canonical action, its parameters included. -/
  identitySHA256 : String
deriving DecidableEq

inductive MissionAcceptanceCriterionState where
  | opened (disposition : MissionAcceptanceCriterionDisposition) (repairAction : MissionAcceptanceRepairAction)
  | accepted
  | blocked
deriving DecidableEq

structure MissionAcceptanceCriterion where
  criterionID : String
  state : MissionAcceptanceCriterionState
  finding : String
  responsibility : MissionAcceptanceCriterionResponsibility
  observationEvidenceLocators : List ArtifactReadLocator
  repairEvidenceLocators : List ArtifactReadLocator
  resolutionEvidenceLocators : List ArtifactReadLocator
  invalidatingEvidenceLocators : List ArtifactReadLocator
  irreducibleBlockerEvidenceLocators : List ArtifactReadLocator
deriving DecidableEq

namespace MissionAcceptanceCriterion

/-- `criterion[role]` -/
def locators (criterion : MissionAcceptanceCriterion) : EvidenceRoleField → List ArtifactReadLocator
  | .observation => criterion.observationEvidenceLocators
  | .repair => criterion.repairEvidenceLocators
  | .resolution => criterion.resolutionEvidenceLocators
  | .invalidating => criterion.invalidatingEvidenceLocators
  | .irreducibleBlocker => criterion.irreducibleBlockerEvidenceLocators

/-- `criterion.state === "open"` -/
def isOpen (criterion : MissionAcceptanceCriterion) : Bool :=
  match criterion.state with
  | .opened _ _ => true
  | _ => false

end MissionAcceptanceCriterion

variable (criterion : MissionAcceptanceCriterion)

def criterionEvidenceLocators : List ArtifactReadLocator :=
  evidenceRoleFields.flatMap criterion.locators

structure MissionAcceptanceGap where
  gapID : String
  /-- The terminal event that the reviewer saw. -/
  terminalEventID : String
  criteria : List MissionAcceptanceCriterion

/-- `z.string().trim()`, on each text of a responsibility that is trimmed. -/
def MissionAcceptanceCriterionResponsibility.trimmed :
    MissionAcceptanceCriterionResponsibility → MissionAcceptanceCriterionResponsibility
  | .workflowNode workflowID workflowNodeID => .workflowNode (trim workflowID) (trim workflowNodeID)
  | .directDispatch packageRevision agentID dispatchLineageID =>
    .directDispatch packageRevision (trim agentID) (trim dispatchLineageID)

/-- `z.string().trim()`, on each text of a repair action that is trimmed. -/
def MissionAcceptanceRepairAction.trimmed (action : MissionAcceptanceRepairAction) :
    MissionAcceptanceRepairAction :=
  { action with
    operation := trim action.operation
    target := trim action.target
    expectedEvidenceKind := trim action.expectedEvidenceKind }

/-- `z.string().trim()`, on the repair action of an open criterion. -/
def MissionAcceptanceCriterionState.trimmed : MissionAcceptanceCriterionState → MissionAcceptanceCriterionState
  | .opened disposition repairAction => .opened disposition repairAction.trimmed
  | .accepted => .accepted
  | .blocked => .blocked

/-- `z.string().trim()`, on each text of a criterion that is trimmed. -/
def MissionAcceptanceCriterion.trimmed : MissionAcceptanceCriterion :=
  { criterion with
    criterionID := trim criterion.criterionID
    state := criterion.state.trimmed
    finding := trim criterion.finding
    responsibility := criterion.responsibility.trimmed }

variable (gap : MissionAcceptanceGap)

/-- `z.string().trim()`, on each text of a gap that is trimmed. -/
def MissionAcceptanceGap.trimmed : MissionAcceptanceGap :=
  { gap with
    gapID := trim gap.gapID
    criteria := gap.criteria.map MissionAcceptanceCriterion.trimmed }

/-- `.min(1).max(limit)`, of a string. -/
def hasLength (limit : ℕ) (value : String) : Bool :=
  1 ≤ stringLength value ∧ stringLength value ≤ limit

def MissionAcceptanceCriterionResponsibility.isValid : MissionAcceptanceCriterionResponsibility → Bool
  | .workflowNode workflowID workflowNodeID => hasLength 160 workflowID ∧ hasLength 160 workflowNodeID
  | .directDispatch packageRevision agentID dispatchLineageID =>
    packageRevision.isValid ∧ hasLength 160 agentID ∧ dispatchLineageID ≠ ""

def MissionAcceptanceRepairAction.isValid (action : MissionAcceptanceRepairAction) : Bool :=
  hasLength 1000 action.operation ∧ hasLength 1000 action.target ∧
    hasLength 160 action.expectedEvidenceKind ∧ isSHA256 action.identitySHA256

def MissionAcceptanceCriterion.hasStateEvidence : Bool :=
  match criterion.state with
  | .opened disposition repairAction =>
    repairAction.isValid ∧ criterion.observationEvidenceLocators ≠ [] ∧ (disposition = .staleEvidence →
        criterion.invalidatingEvidenceLocators ≠ [] ∧ criterion.resolutionEvidenceLocators ≠ [])
  | .accepted => criterion.resolutionEvidenceLocators ≠ []
  | .blocked => criterion.irreducibleBlockerEvidenceLocators ≠ []

/-- The criterion meets `MissionAcceptanceCriterionSchema`. -/
def MissionAcceptanceCriterion.isValid : Bool :=
  hasLength 160 criterion.criterionID ∧ hasLength 8000 criterion.finding ∧
    criterion.responsibility.isValid ∧ criterion.hasStateEvidence ∧
    ∀ role ∈ evidenceRoleFields, (criterion.locators role).length ≤ 64

/-- The gap meets `MissionAcceptanceGapSchema`. -/
def MissionAcceptanceGap.isValid : Bool :=
  hasLength 160 gap.gapID ∧ gap.terminalEventID ≠ "" ∧
    1 ≤ gap.criteria.length ∧ gap.criteria.length ≤ 128 ∧
    (∀ criterion ∈ gap.criteria, criterion.isValid) ∧
    (gap.criteria.map (·.criterionID)).Nodup ∧
    (gap.criteria.flatMap criterionEvidenceLocators).Nodup ∧
    (∃ criterion ∈ gap.criteria, criterion.isOpen) ∧
    (gap.criteria.flatMap criterionEvidenceLocators).length ≤ 64

/-- `MissionAcceptanceGapSchema.parse(gap)` -/
def parseMissionAcceptanceGap : Except LedgerError MissionAcceptanceGap :=
  if gap.trimmed.isValid then .ok gap.trimmed else .error (.invalid "MissionAcceptanceGap")

/-! ### What parsing answers -/

@[simp] lemma responsibility_trimmed_trimmed (responsibility : MissionAcceptanceCriterionResponsibility) :
    responsibility.trimmed.trimmed = responsibility.trimmed := by
  cases responsibility <;> simp [MissionAcceptanceCriterionResponsibility.trimmed]

@[simp] lemma state_trimmed_trimmed (state : MissionAcceptanceCriterionState) :
    state.trimmed.trimmed = state.trimmed := by
  cases state <;>
    simp [MissionAcceptanceCriterionState.trimmed, MissionAcceptanceRepairAction.trimmed]

@[simp] lemma criterion_trimmed_trimmed : criterion.trimmed.trimmed = criterion.trimmed := by
  simp [MissionAcceptanceCriterion.trimmed]

@[simp] lemma gap_trimmed_trimmed : gap.trimmed.trimmed = gap.trimmed := by
  simp [MissionAcceptanceGap.trimmed]

lemma parseMissionAcceptanceGap_eq_ok {gap parsed : MissionAcceptanceGap} :
    parseMissionAcceptanceGap gap = .ok parsed ↔ parsed = gap.trimmed ∧ parsed.isValid = true := by
  unfold parseMissionAcceptanceGap
  split_ifs with h
  · constructor
    · rintro ⟨⟩
      exact ⟨rfl, h⟩
    · rintro ⟨rfl, -⟩
      rfl
  · constructor
    · intro hok
      cases hok
    · rintro ⟨rfl, hvalid⟩
      exact absurd hvalid h

theorem parseMissionAcceptanceGap_idem {gap parsed : MissionAcceptanceGap}
    (h : parseMissionAcceptanceGap gap = .ok parsed) : parseMissionAcceptanceGap parsed = .ok parsed := by
  obtain ⟨rfl, hvalid⟩ := parseMissionAcceptanceGap_eq_ok.mp h
  exact parseMissionAcceptanceGap_eq_ok.mpr ⟨(gap_trimmed_trimmed gap).symm, hvalid⟩

lemma MissionAcceptanceGap.nodup_of_isValid {gap : MissionAcceptanceGap} (h : gap.isValid = true) :
    (gap.criteria.map (·.criterionID)).Nodup := by
  simp only [MissionAcceptanceGap.isValid, decide_eq_true_eq] at h
  exact h.2.2.2.2.2.1

end OpenCorvus.Mission
