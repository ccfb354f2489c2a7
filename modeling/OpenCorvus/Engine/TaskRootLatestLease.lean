import OpenCorvus.Engine.TaskRootReleased
import OpenCorvus.Foundation.StableSort
import OpenCorvus.Id.Identifier

/-!
# The latest lease of a Task-root ingress

The reduction takes the latest activation lease from the facts, with ids of one activation instant in the order of
`localeCompare`; the database seeks it with these ids in the order of their bytes.  The two agree exactly if the
collation of the ids agrees with their bytes about the greatest one of the latest instant.
-/

namespace OpenCorvus.Engine

open EcmaScript List ControlLease

variable [Collation] {rows : List ControlLease} {latest row : ControlLease}

def CollatesLatest (rows : List ControlLease) : Prop :=
  ∀ latest ∈ rows, (∀ row ∈ rows, row.orderKey ≤ latest.orderKey) →
    ∀ row ∈ rows, row.timeActivated = latest.timeActivated → row ≠ latest → localeCompare latest.id row.id = .gt

def ControlLease.compareLatest (left right : ControlLease) : Ordering :=
  compareLatestLease left.fact right.fact

instance : Std.TransCmp ControlLease.compareLatest :=
  have : Std.TransCmp (localeCompare : String → String → Ordering) := Collation.trans
  have : Std.TransCmp fun left right : ControlLease => localeCompare left.id right.id :=
    { eq_swap := Std.OrientedCmp.eq_swap, isLE_trans := Std.TransCmp.isLE_trans }
  have : Std.TransCmp fun left right : ControlLease => localeCompare right.id left.id :=
    Std.TransCmp.opposite
  have : Std.TransCmp fun left right : ControlLease => compare right.timeActivated left.timeActivated :=
    inferInstanceAs (Std.TransCmp fun left right => compareOn ControlLease.timeActivated right left)
  inferInstanceAs (Std.TransCmp (compareLex
    (fun left right : ControlLease => compare right.timeActivated left.timeActivated)
    fun left right : ControlLease => localeCompare right.id left.id))

instance : Std.TransCmp ControlLease.compareActivated :=
  inferInstanceAs (Std.TransCmp (compareLex (compareOn ControlLease.timeActivated) (compareOn ControlLease.id)))

omit [Collation] in
lemma orderKey_lt_iff : row.orderKey < latest.orderKey ↔ row.timeActivated < latest.timeActivated ∨
      (row.timeActivated = latest.timeActivated ∧ row.id < latest.id) :=
  Prod.Lex.toLex_lt_toLex

omit [Collation] in
lemma orderKey_lt_of_le (hids : (rows.map ControlLease.id).Nodup) (hlatest : latest ∈ rows) (hrow : row ∈ rows)
    (hne : row ≠ latest) (hle : row.orderKey ≤ latest.orderKey) : row.orderKey < latest.orderKey := by
  refine lt_of_le_of_ne hle fun hkey => hne ?_
  have hid : row.id = latest.id := congrArg (fun key => (ofLex key).2) hkey
  exact inj_on_of_nodup_map hids hrow hlatest hid

lemma CollatesLatest.compareLatest_eq_lt (h : CollatesLatest rows) (hids : (rows.map ControlLease.id).Nodup)
    (hlatest : latest ∈ rows) (hle : ∀ row ∈ rows, row.orderKey ≤ latest.orderKey) (hrow : row ∈ rows)
    (hne : row ≠ latest) : ControlLease.compareLatest latest row = .lt := by
  have hcompare : compareLatest latest row =
      (compare row.timeActivated latest.timeActivated).then (localeCompare row.id latest.id) := rfl
  rw [hcompare]
  rcases orderKey_lt_iff.mp (orderKey_lt_of_le hids hlatest hrow hne (hle row hrow)) with hlt | ⟨heq, -⟩
  · rw [compare_lt_iff_lt.mpr hlt]
    rfl
  · have htrans : Std.TransCmp (localeCompare : String → String → Ordering) := Collation.trans
    have hgt := h latest hlatest hle row hrow heq hne
    rw [compare_eq_iff_eq.mpr heq, Std.OrientedCmp.lt_of_gt hgt]
    rfl

lemma head?_eq_latest_iff (hids : (rows.map ControlLease.id).Nodup) (hlatest : latest ∈ rows)
    (hle : ∀ row ∈ rows, row.orderKey ≤ latest.orderKey) :
    (toSorted ControlLease.compareLatest (toSorted ControlLease.compareActivated rows)).head? = some latest ↔
      CollatesLatest rows := by
  have hmem : ∀ row, row ∈ toSorted compareActivated rows ↔ row ∈ rows := fun _ => mem_toSorted
  constructor
  · intro hhead other hother hotherLe row hrow htime hne
    have hsame : other = latest := by
      by_contra hdiffers
      exact absurd (orderKey_lt_of_le hids hlatest hother hdiffers (hle other hother))
        (not_lt.mpr (hotherLe latest hlatest))
    subst hsame
    obtain ⟨rest, hsorted⟩ := head?_eq_some_iff.mp hhead
    have hfirst := toSorted_head_isLE hsorted ((hmem row).mpr hrow)
    have hcompare : compareLatest other row = localeCompare row.id other.id := by
      change (compare row.timeActivated other.timeActivated).then (localeCompare row.id other.id) = _
      rw [compare_eq_iff_eq.mpr htime]
      rfl
    have htrans : Std.TransCmp (localeCompare : String → String → Ordering) := Collation.trans
    rw [hcompare] at hfirst
    have hnotEq : localeCompare row.id other.id ≠ .eq := by
      -- A stable sort would leave the lesser id of the two in front.
      intro heq
      have hlt : row.id < other.id :=
        ((orderKey_lt_iff.mp (orderKey_lt_of_le hids hother hrow hne (hle row hrow))).resolve_left htime.not_lt).2
      have hbefore : compareActivated row other = .lt := by
        change (compare row.timeActivated other.timeActivated).then (compare row.id other.id) = _
        rw [compare_eq_iff_eq.mpr htime, compare_lt_iff_lt.mpr hlt]
        rfl
      have hpair := pair_sublist_toSorted_of_lt hrow hother hbefore
      have hle : (compareLatest row other).isLE = true := by
        rw [Std.OrientedCmp.eq_comm.mp (hcompare.trans heq)]
        rfl
      have hstill := pair_sublist_toSorted hpair hle
      have hnodup : (other :: rest).Nodup := by
        rw [← hsorted]
        exact ((toSorted_perm _ _).trans (toSorted_perm _ _)).nodup_iff.mpr (Nodup.of_map _ hids)
      rw [hsorted] at hstill
      rcases sublist_cons_iff.mp hstill with hrest | ⟨_, htail, -⟩
      · exact (nodup_cons.mp hnodup).1 (hrest.subset (by simp))
      · exact hne (cons.inj htail).1
    cases hid : localeCompare row.id other.id with
    | lt => exact Std.OrientedCmp.gt_of_lt hid
    | eq => exact absurd hid hnotEq
    | gt =>
      rw [hid] at hfirst
      cases hfirst
  · intro hcollates
    refine head?_toSorted_of_forall_lt ((hmem latest).mpr hlatest) fun row hrow hne => ?_
    exact hcollates.compareLatest_eq_lt hids hlatest hle ((hmem row).mp hrow) hne

/-- The latest lease of the facts is the current lease of the database exactly if the greatest id of
the latest activation instant is collated after the others of that instant. -/
theorem latestTaskRootIngressLease_eq_current_iff (db : TaskRootDatabase)
    (hids : (db.activations.leases.map ControlLease.id).Nodup) (ingress : TaskRootIngressRow)
    (policy : TaskRootIngressPolicyRow) (integrityViolation : Option String)
    (evidence : TaskRootIngressEvidence) (lifecycle : List TaskLifecycleFact) :
    latestTaskRootIngressLease (assembleFacts db ingress policy integrityViolation evidence lifecycle) =
        (currentControlLeaseInTransaction db.activations .taskRootIngress ingress.id).map ControlLease.fact ↔
      CollatesLatest (db.activations.ofTarget .taskRootIngress ingress.id) := by
  rw [latestTaskRootIngressLease_assembleFacts]
  have hrows : ((db.activations.ofTarget .taskRootIngress ingress.id).map ControlLease.id).Nodup :=
    hids.sublist (filter_sublist.map _)
  cases hcurrent : currentControlLeaseInTransaction db.activations .taskRootIngress ingress.id with
  | none =>
    have hempty : db.activations.ofTarget .taskRootIngress ingress.id = [] := argmax_eq_none.mp hcurrent
    unfold latestActivation
    rw [hempty]
    exact ⟨fun _ latest hlatest => absurd hlatest not_mem_nil, fun _ => rfl⟩
  | some latest =>
    have hmem : latest ∈ db.activations.ofTarget .taskRootIngress ingress.id := argmax_mem hcurrent
    rw [← head?_eq_latest_iff hrows hmem fun row hrow => le_of_mem_argmax hrow hcurrent]
    change (latestActivation db ingress.id).map fact = some latest.fact ↔
      latestActivation db ingress.id = some latest
    refine ⟨fun hfact => ?_, fun hlatest => by rw [hlatest, Option.map_some]⟩
    obtain ⟨lease, hlease, hsame⟩ := Option.map_eq_some_iff.mp hfact
    have hid : lease.id = latest.id := congrArg ActivationLeaseFact.id hsame
    rw [hlease, inj_on_of_nodup_map hrows (mem_of_latestActivation hlease) hmem hid]

/-! ### Examples -/

def activatedIngress : TaskRootIngressRow where
  id := "ing_1"
  taskID := "tsk_1"
  projectID := "prj_1"
  executionEpoch := 1
  sequence := 1
  source := .inline
  sourceID := "src_1"
  inlinePayload := none
  policyID := "policy"
  timeAccepted := 0

/-- A database with two activations of one ingress and one instant; the second is unexpired. -/
def simultaneousDatabase (first second : String) : TaskRootDatabase where
  tasks := []
  sessions := []
  closedProjects := []
  fencedSessions := []
  events := []
  protocolEvents := []
  messages := []
  toolRequests := []
  toolOutcomes := []
  parts := []
  providerRequests := []
  providerOutcomes := []
  interactions := []
  artifacts := []
  waits := []
  waitSettlements := []
  policies := []
  ingresses := [activatedIngress]
  activations :=
    { leases := [
        { id := first, target := .taskRootIngress, targetID := "ing_1", ownerOccurrenceID := "own_1",
          timeActivated := 1750000000035, expiresAt := 1750000000035 },
        { id := second, target := .taskRootIngress, targetID := "ing_1", ownerOccurrenceID := "own_2",
          timeActivated := 1750000000035, expiresAt := 1750000060035 }]
      grants := [] }

def simultaneousFacts (first second : String) : TaskRootIngressFacts :=
  assembleFacts (simultaneousDatabase first second) activatedIngress
    { id := "policy", semanticTurnLimit := 8, activationLimit := 8, absoluteDeadline := none } none
    EMPTY_EVIDENCE []

omit [Collation] in
/-- Two activations whose ids differ in letters of one case have one latest lease. -/
theorem latestTaskRootIngressLease_current_lowercase :
    letI := Identifier.identifierCollation
    ((simultaneousDatabase "act_b" "act_a").activations.leases.map ControlLease.id).Nodup ∧
      (latestTaskRootIngressLease (simultaneousFacts "act_b" "act_a") =
          (currentControlLeaseInTransaction (simultaneousDatabase "act_b" "act_a").activations
            .taskRootIngress activatedIngress.id).map ControlLease.fact ↔
        CollatesLatest
          ((simultaneousDatabase "act_b" "act_a").activations.ofTarget .taskRootIngress activatedIngress.id)) := by
  let _ : Collation := Identifier.identifierCollation
  have hids : ((simultaneousDatabase "act_b" "act_a").activations.leases.map ControlLease.id).Nodup := by decide
  exact ⟨hids, latestTaskRootIngressLease_eq_current_iff _ hids _ _ _ _ _⟩

omit [Collation] in
/-- Two processes create the ids of two activations at one instant, and their random digits begin with
`Z` and with `a`: the reduction takes the first activation for the latest, and the database the
second. -/
theorem latestTaskRootIngressLease_ne_current :
    letI := Identifier.identifierCollation
    ∃ first second : String,
      ((Identifier.create "act" none 1750000000035 fun i => if i = 0 then 35 else 0).map Prod.fst = .ok first ∧
        (Identifier.create "act" none 1750000000035 fun i => if i = 0 then 36 else 0).map Prod.fst = .ok second) ∧
      latestTaskRootIngressLease (simultaneousFacts first second) ≠
        (currentControlLeaseInTransaction (simultaneousDatabase first second).activations
          .taskRootIngress activatedIngress.id).map ControlLease.fact := by
  let _ : Collation := Identifier.identifierCollation
  refine ⟨"act_g0UoCbemB00Z00000000", "act_g0UoCbemB00a00000000", ⟨?_, ?_⟩, ?_⟩
  · decide +kernel
  · decide +kernel
  · decide +kernel

end OpenCorvus.Engine
