import OpenCorvus.Foundation.DependencySearch
import OpenCorvus.Mission.AcceptanceLedger

/-!
# The workflow nodes that an acceptance gap affects

The nodes that a gap affects grow from the responsible nodes of its open criteria along the dependencies of
the workflow.  Whether one node consumes a criterion is searched backwards, from the node to the responsible
one.
-/

namespace OpenCorvus.Mission

open DependencySearch

def openAcceptanceCriteria (gap : MissionAcceptanceGap) : List MissionAcceptanceCriterion :=
  gap.criteria.filter (·.isOpen)

/-- `criterion.responsibility.workflow_node_id`, of a responsibility of kind `workflow_node`. -/
def MissionAcceptanceCriterionResponsibility.workflowNodeID :
    MissionAcceptanceCriterionResponsibility → Option String
  | .workflowNode _ workflowNodeID => some workflowNodeID
  | .directDispatch _ _ _ => none

def workflowDependencies (nodes : List SelectedWorkflowNodeBinding) : List (String × List String) :=
  nodes.map fun node => (node.nodeID, node.dependsOn)

def affectedAcceptanceWorkflowNodes (binding : SelectedWorkflowBinding) (gap : MissionAcceptanceGap) :
    List String :=
  match binding with
  | .direct _ => []
  | .virtualWorkflow _ _ nodes =>
    grow (workflowDependencies nodes)
      ((openAcceptanceCriteria gap).filterMap (·.responsibility.workflowNodeID)).eraseDups

def workflowNodeConsumesAcceptanceCriterion (binding : SelectedWorkflowBinding)
    (responsibleWorkflowNodeID candidateWorkflowNodeID : String) : Bool :=
  match binding with
  | .direct _ => false
  | .virtualWorkflow _ _ nodes =>
    if responsibleWorkflowNodeID = candidateWorkflowNodeID then true
    else search (workflowDependencies nodes) responsibleWorkflowNodeID [] [candidateWorkflowNodeID]

section Agreement

variable {workflowID : String} {packageRevision : ExpertSquadPackageRevisionBinding}
  {nodes : List SelectedWorkflowNodeBinding} {gap : MissionAcceptanceGap} {nodeID responsible : String}

lemma closed_workflowDependencies (hnames : (nodes.map (·.nodeID)).Nodup)
    (hdependencies : ∀ node ∈ nodes, ∀ dependency ∈ node.dependsOn, ∃ other ∈ nodes, other.nodeID = dependency) :
    Closed (workflowDependencies nodes) where
  names := by
    rw [workflowDependencies, List.map_map]
    exact hnames
  dependencies := by
    intro entry hentry dependency hdependency
    obtain ⟨node, hnode, rfl⟩ := List.mem_map.mp hentry
    obtain ⟨_, hother, hname⟩ := hdependencies node hnode dependency hdependency
    exact ⟨_, List.mem_map_of_mem hother, hname⟩

lemma mem_affectedAcceptanceWorkflowNodes :
    nodeID ∈ affectedAcceptanceWorkflowNodes (.virtualWorkflow workflowID packageRevision nodes) gap ↔
      ∃ criterion ∈ openAcceptanceCriteria gap, ∃ responsible ∈ criterion.responsibility.workflowNodeID,
        Relation.ReflTransGen (DependsOn (workflowDependencies nodes)) nodeID responsible := by
  simp only [affectedAcceptanceWorkflowNodes, mem_grow_iff, List.mem_eraseDups, List.mem_filterMap]
  constructor
  · rintro ⟨responsible, ⟨criterion, hcriterion, hresponsible⟩, hpath⟩
    exact ⟨criterion, hcriterion, responsible, hresponsible, hpath⟩
  · rintro ⟨criterion, hcriterion, responsible, hresponsible, hpath⟩
    exact ⟨responsible, ⟨criterion, hcriterion, hresponsible⟩, hpath⟩

lemma workflowNodeConsumesAcceptanceCriterion_iff (h : Closed (workflowDependencies nodes)) :
    workflowNodeConsumesAcceptanceCriterion (.virtualWorkflow workflowID packageRevision nodes) responsible
        nodeID = true ↔
      Relation.ReflTransGen (DependsOn (workflowDependencies nodes)) nodeID responsible := by
  rw [workflowNodeConsumesAcceptanceCriterion, Relation.reflTransGen_iff_eq_or_transGen]
  split_ifs with hsame
  · exact ⟨fun _ => .inl hsame, fun _ => rfl⟩
  · rw [search_singleton_iff h]
    exact ⟨.inr, fun hpath => hpath.resolve_left hsame⟩

theorem mem_affectedAcceptanceWorkflowNodes_iff (hnames : (nodes.map (·.nodeID)).Nodup)
    (hdependencies : ∀ node ∈ nodes, ∀ dependency ∈ node.dependsOn, ∃ other ∈ nodes, other.nodeID = dependency) :
    nodeID ∈ affectedAcceptanceWorkflowNodes (.virtualWorkflow workflowID packageRevision nodes) gap ↔
      ∃ criterion ∈ openAcceptanceCriteria gap, ∃ responsible ∈ criterion.responsibility.workflowNodeID,
        workflowNodeConsumesAcceptanceCriterion (.virtualWorkflow workflowID packageRevision nodes)
          responsible nodeID = true := by
  have hclosed := closed_workflowDependencies hnames hdependencies
  simp only [mem_affectedAcceptanceWorkflowNodes, workflowNodeConsumesAcceptanceCriterion_iff hclosed]

end Agreement

/-- Three nodes, two of which depend on each other. -/
def cyclicWorkflow : List SelectedWorkflowNodeBinding :=
  [⟨"build", "builder", ["review"]⟩, ⟨"review", "reviewer", ["build"]⟩, ⟨"note", "writer", []⟩]

def buildGap : MissionAcceptanceGap where
  gapID := "gap"
  terminalEventID := "terminal"
  criteria := [{
    criterionID := "c1"
    state := .opened .failed ⟨"repair", "build", "log", "d1"⟩
    finding := "the build is stale"
    responsibility := .workflowNode "release" "build"
    observationEvidenceLocators := []
    repairEvidenceLocators := []
    resolutionEvidenceLocators := []
    invalidatingEvidenceLocators := []
    irreducibleBlockerEvidenceLocators := [] }]

def releasePackage : ExpertSquadPackageRevisionBinding where
  scope := .builtIn
  projectID := none
  packageNamespace := "corvus"
  id := "release"
  version := "1.0.0"
  packageDigest := "d0"

theorem mem_affectedAcceptanceWorkflowNodes_cyclic :
    "review" ∈ affectedAcceptanceWorkflowNodes (.virtualWorkflow "release" releasePackage cyclicWorkflow)
        buildGap ↔
      ∃ criterion ∈ openAcceptanceCriteria buildGap, ∃ responsible ∈ criterion.responsibility.workflowNodeID,
          workflowNodeConsumesAcceptanceCriterion (.virtualWorkflow "release" releasePackage cyclicWorkflow)
            responsible "review" = true :=
  mem_affectedAcceptanceWorkflowNodes_iff (by decide) (by decide)

end OpenCorvus.Mission
