import Mathlib.Data.List.Nodup
import Mathlib.Data.List.Perm.Subperm
import OpenCorvus.Foundation.Transaction

/-!
# The tip of the GoalGraph projections

Every successful projection names the one before it by its id and its digest.  The resolver looks for the only
projection that no other one names, and follows the names back.  It answers exactly when the successful projections,
each under its own id, form one lineage, and then with the newest one; without successful ones there is no tip.
-/

namespace OpenCorvus.Engine

open Transaction List Option Engine

variable {π : Type}

/-- The fields of an engine artifact locator that the resolver reads. -/
structure EngineArtifactLocator where
  artifactID : String
  expectedSHA256 : String

/-- What the resolver reads of a projection artifact. -/
structure GoalGraphProjectionFact (π : Type) where
  id : String
  payloadSHA256 : String
  projection : Option π
  priorProjectionArtifactLocator : Option EngineArtifactLocator

variable (successful : List (GoalGraphProjectionFact π))

/-- `new Map(successful.map((artifact) => [artifact.id, artifact]))`: the last artifact of an id stays. -/
def byID (id : String) : Option (GoalGraphProjectionFact π) :=
  successful.reverse.find? fun artifact => artifact.id == id

def checkPrior (artifact : GoalGraphProjectionFact π) : Except String Unit :=
  match artifact.priorProjectionArtifactLocator with
  | none => pure ()
  | some prior =>
    if (byID successful prior.artifactID).any fun priorArtifact =>
        priorArtifact.payloadSHA256 == prior.expectedSHA256 then
      pure ()
    else
      throw ("GoalGraph projection " ++ artifact.id ++
        " references missing, non-projected, or digest-mismatched prior " ++ prior.artifactID)

def referencedPriorIDs : List String :=
  successful.filterMap fun artifact => artifact.priorProjectionArtifactLocator.map (·.artifactID)

/-- The loop over `cursor`, for a number of steps; `none` when that was not enough. -/
def walkPriors (successful : List (GoalGraphProjectionFact π)) :
    ℕ → List String → Option (GoalGraphProjectionFact π) → Option (Except String (List String))
  | _, visited, none => some (pure visited)
  | 0, _, some _ => none
  | fuel + 1, visited, some cursor =>
    if cursor.id ∈ visited then some (throw ("GoalGraph projection lineage cycle detected at " ++ cursor.id))
    else
      walkPriors successful fuel (cursor.id :: visited)
        (cursor.priorProjectionArtifactLocator.bind fun prior => byID successful prior.artifactID)

def resolveGoalGraphProjectionTip (taskID : String) (facts : List (GoalGraphProjectionFact π)) :
    Option (Except String (Option (GoalGraphProjectionFact π))) :=
  let successful := facts.filter fun artifact => artifact.projection.isSome
  if successful.isEmpty then some (pure none)
  else
    match successful.forM (checkPrior successful) with
    | .error error => some (.error error)
    | .ok () =>
      match successful.filter fun artifact => artifact.id ∉ referencedPriorIDs successful with
      | [tip] =>
        (walkPriors successful (successful.length + 1) [] (some tip)).map fun walked => do
          let visited ← walked
          throwWhen (visited.length ≠ successful.length)
            ("Task " ++ taskID ++ " has disconnected GoalGraph projection lineage: " ++
              ", ".intercalate ((successful.filter fun artifact => artifact.id ∉ visited).map (·.id)))
          return some tip
      | tips =>
        some (throw ("Task " ++ taskID ++ " has " ++ toString tips.length ++
          " current GoalGraph projection tips; expected exactly one"))

def GoalGraphProjectionFact.Follows (artifact prior : GoalGraphProjectionFact π) : Prop :=
  artifact.priorProjectionArtifactLocator = some ⟨prior.id, prior.payloadSHA256⟩

/-- Artifacts, newest first, of which each follows the next one, and the oldest follows none. -/
def Lineage : List (GoalGraphProjectionFact π) → Prop
  | [] => True
  | [artifact] => artifact.priorProjectionArtifactLocator = none
  | artifact :: prior :: older => artifact.Follows prior ∧ Lineage (prior :: older)

/-- The successful facts, each under its own id, form one lineage, of which this is the newest. -/
def IsLineageTip (facts : List (GoalGraphProjectionFact π)) (tip : GoalGraphProjectionFact π) : Prop :=
  ∃ older, (tip :: older).Perm (facts.filter fun artifact => artifact.projection.isSome) ∧
    ((tip :: older).map (·.id)).Nodup ∧ Lineage (tip :: older)

section

variable {successful older lineage : List (GoalGraphProjectionFact π)} {artifact tip : GoalGraphProjectionFact π}
  {cursor : Option (GoalGraphProjectionFact π)}

lemma mem_of_byID {id : String} (h : byID successful id = some artifact) : artifact ∈ successful ∧ artifact.id = id :=
  ⟨mem_reverse.mp (mem_of_find?_eq_some h), by simpa using find?_some h⟩

lemma byID_of_mem (hids : (successful.map (·.id)).Nodup) (hmem : artifact ∈ successful) :
    byID successful artifact.id = some artifact := by
  cases h : byID successful artifact.id with
  | none =>
    have hnone := find?_eq_none.mp h artifact (mem_reverse.mpr hmem)
    simp at hnone
  | some =>
    obtain ⟨hother, hid⟩ := mem_of_byID h
    rw [inj_on_of_nodup_map hids hother hmem hid]

lemma checkPrior_eq_ok {u : Unit} : checkPrior successful artifact = .ok u ↔
    ∀ prior, artifact.priorProjectionArtifactLocator = some prior →
      ∃ priorArtifact, byID successful prior.artifactID = some priorArtifact ∧
        priorArtifact.payloadSHA256 = prior.expectedSHA256 := by
  unfold checkPrior
  cases artifact.priorProjectionArtifactLocator with
  | none => simp
  | some prior =>
    cases hprior : byID successful prior.artifactID with
    | none => simp [hprior]
    | some priorArtifact =>
      by_cases hsha : priorArtifact.payloadSHA256 = prior.expectedSHA256
      · simp [hprior, hsha]
      · simp [hprior, hsha]

lemma Lineage.referencedPriorIDs (h : Lineage (tip :: older)) :
    referencedPriorIDs (tip :: older) = older.map (·.id) := by
  induction older generalizing tip with
  | nil =>
    have hnone : tip.priorProjectionArtifactLocator = none := h
    simp [referencedPriorIDs, hnone]
  | cons prior _ ih =>
    have hfollows : tip.priorProjectionArtifactLocator = _ := h.1
    rw [referencedPriorIDs, filterMap_cons, hfollows]
    exact congrArg (prior.id :: ·) (ih h.2)

/-- Every artifact of a lineage names none or an older artifact with its digest. -/
lemma Lineage.exists_prior (h : Lineage lineage) (hmem : artifact ∈ lineage) {prior : EngineArtifactLocator}
    (hprior : artifact.priorProjectionArtifactLocator = some prior) :
    ∃ priorArtifact ∈ lineage, prior = ⟨priorArtifact.id, priorArtifact.payloadSHA256⟩ := by
  induction lineage with
  | nil => cases hmem
  | cons _ older ih =>
    cases older with
    | nil =>
      obtain rfl := mem_singleton.mp hmem
      have hnone : artifact.priorProjectionArtifactLocator = none := h
      rw [hnone] at hprior
      cases hprior
    | cons second =>
      obtain ⟨hfollows, hrest⟩ := h
      rcases mem_cons.mp hmem with rfl | hmem
      · refine ⟨second, by simp, some.inj (hprior.symm.trans hfollows)⟩
      · obtain ⟨priorArtifact, hpriorMem, heq⟩ := ih hrest hmem
        exact ⟨priorArtifact, mem_cons_of_mem _ hpriorMem, heq⟩

lemma Lineage.walkPriors (h : Lineage (tip :: older)) (hmem : ∀ artifact ∈ tip :: older,
      byID successful artifact.id = some artifact) {fuel : ℕ} (hfuel : (tip :: older).length ≤ fuel)
    {visited : List String} (hnew : (((tip :: older).map (·.id)).reverse ++ visited).Nodup) :
    walkPriors successful fuel visited (some tip) = some (.ok (((tip :: older).map (·.id)).reverse ++ visited)) := by
  induction older generalizing tip fuel visited with
  | nil =>
    obtain ⟨_, rfl⟩ := Nat.exists_eq_add_of_le' hfuel
    have hnone : tip.priorProjectionArtifactLocator = none := h
    have hfresh : tip.id ∉ visited := (nodup_cons.mp hnew).1
    rw [length_singleton, walkPriors, if_neg hfresh, hnone, bind_none, walkPriors]
    rfl
  | cons prior _ ih =>
    obtain ⟨_, rfl⟩ := Nat.exists_eq_add_of_le' (Nat.one_le_of_lt hfuel)
    rw [map_cons, reverse_cons, append_assoc, singleton_append] at hnew ⊢
    have hfresh : tip.id ∉ visited := (nodup_cons.mp (hnew.sublist (sublist_append_right _ _))).1
    have hfollows : tip.priorProjectionArtifactLocator = _ := h.1
    rw [walkPriors, if_neg hfresh, hfollows, bind_some, hmem prior (by simp)]
    exact ih h.2 (fun artifact hartifact => hmem artifact (mem_cons_of_mem _ hartifact))
      (by simpa using hfuel) hnew

lemma lineage_of_walkPriors (hchecked : ∀ artifact ∈ successful, checkPrior successful artifact = .ok ())
    (htip : tip ∈ successful) {fuel : ℕ} {visited result : List String}
    (h : walkPriors successful fuel visited (some tip) = some (.ok result)) :
    ∃ older, Lineage (tip :: older) ∧ (∀ artifact ∈ tip :: older, artifact ∈ successful) ∧
      result = ((tip :: older).map (·.id)).reverse ++ visited ∧ (visited.Nodup → result.Nodup) := by
  induction fuel generalizing tip visited with
  | zero => cases h
  | succ _ ih =>
    rw [walkPriors] at h
    split_ifs at h with hseen
    · cases h
    have hnodup (hvisited : visited.Nodup) : (tip.id :: visited).Nodup := nodup_cons.mpr ⟨hseen, hvisited⟩
    cases hprior : tip.priorProjectionArtifactLocator with
    | none =>
      rw [hprior, bind_none, walkPriors] at h
      obtain rfl := Except.ok.inj (some.inj h)
      exact ⟨[], hprior, by simpa using htip, rfl, hnodup⟩
    | some prior =>
      obtain ⟨priorArtifact, hfound, hsha⟩ := checkPrior_eq_ok.mp (hchecked tip htip) prior hprior
      obtain ⟨hmem, hid⟩ := mem_of_byID hfound
      rw [hprior, bind_some, hfound] at h
      obtain ⟨older, hlineage, hsub, hresult, hfresh⟩ := ih hmem h
      refine ⟨priorArtifact :: older, ⟨?_, hlineage⟩, ?_, ?_, fun hvisited => hfresh (hnodup hvisited)⟩
      · rw [GoalGraphProjectionFact.Follows, hprior, hid, hsha]
      · exact forall_mem_cons.mpr ⟨htip, hsub⟩
      · rw [hresult]
        simp

/-- A step more than there are artifacts is enough. -/
lemma walkPriors_ne_none (hcursor : ∀ artifact ∈ cursor, artifact ∈ successful) {fuel : ℕ} {visited : List String}
    (hnodup : visited.Nodup) (hvisited : visited ⊆ successful.map (·.id))
    (hfuel : successful.length < fuel + visited.length) : walkPriors successful fuel visited cursor ≠ none := by
  induction fuel generalizing visited cursor with
  | zero =>
    have hle := (hnodup.subperm hvisited).length_le
    rw [length_map] at hle
    omega
  | succ _ ih =>
    cases cursor with
    | none => exact some_ne_none _
    | some cursor =>
      rw [walkPriors]
      split_ifs with hseen
      · exact some_ne_none _
      · refine ih (fun artifact hartifact => ?_) (nodup_cons.mpr ⟨hseen, hnodup⟩)
          (cons_subset.mpr ⟨List.mem_map_of_mem (hcursor cursor rfl), hvisited⟩) (by rw [length_cons]; omega)
        obtain ⟨_, -, hfound⟩ := bind_eq_some_iff.mp hartifact
        exact (mem_of_byID hfound).1

end

section

variable {facts facts' successful : List (GoalGraphProjectionFact π)} {tip : GoalGraphProjectionFact π} {taskID : String}

lemma IsLineageTip.perm (hperm : facts'.Perm facts) : IsLineageTip facts' tip ↔ IsLineageTip facts tip := by
  have hsuccessful := hperm.filter fun artifact => artifact.projection.isSome
  refine exists_congr fun older => and_congr_left fun _ => ⟨fun h => h.trans hsuccessful, fun h => h.trans hsuccessful.symm⟩

lemma resolve_eq_some (taskID : String) (facts : List (GoalGraphProjectionFact π)) :
    ∃ outcome, resolveGoalGraphProjectionTip taskID facts = some outcome := by
  unfold resolveGoalGraphProjectionTip
  dsimp only
  split_ifs
  · exact ⟨_, rfl⟩
  split
  · exact ⟨_, rfl⟩
  split
  · next tip htips =>
    obtain ⟨htip, -⟩ := mem_filter.mp (htips ▸ mem_singleton_self tip)
    have hwalk : walkPriors _ (_ + 1) [] (some tip) ≠ none :=
      walkPriors_ne_none (fun artifact h => (mem_some_iff.mp h) ▸ htip) nodup_nil (nil_subset _)
        (Nat.lt_succ_self _)
    obtain ⟨_, hwalked⟩ := ne_none_iff_exists'.mp hwalk
    rw [hwalked]
    exact ⟨_, rfl⟩
  · exact ⟨_, rfl⟩

/-- What the resolver has established when it answers. -/
lemma resolve_eq_ok_iff {answer : Option (GoalGraphProjectionFact π)}
    (hsuccessful : facts.filter (fun artifact => artifact.projection.isSome) = successful) :
    resolveGoalGraphProjectionTip taskID facts = some (.ok answer) ↔ successful = [] ∧ answer = none ∨
      successful ≠ [] ∧ (∀ artifact ∈ successful, checkPrior successful artifact = .ok ()) ∧
        ∃ tip visited, successful.filter (fun artifact => artifact.id ∉ referencedPriorIDs successful) = [tip] ∧
          walkPriors successful (successful.length + 1) [] (some tip) = some (.ok visited) ∧
          visited.length = successful.length ∧ answer = some tip := by
  unfold resolveGoalGraphProjectionTip
  dsimp only
  rw [hsuccessful]
  split_ifs with hempty
  · rw [List.isEmpty_iff] at hempty
    simp only [hempty, true_and, ne_eq, not_true_eq_false, false_and, or_false, some.injEq]
    exact ⟨fun h => (Except.ok.inj h).symm, fun h => congrArg Except.ok h.symm⟩
  rw [List.isEmpty_iff] at hempty
  have hchecked : successful.forM (checkPrior successful) = .ok () ↔ _ := forM_eq_ok
  simp only [hempty, false_and, false_or, ne_eq, not_false_eq_true, true_and]
  split
  · next error herror =>
    rw [herror] at hchecked
    refine ⟨fun h => (by cases h), fun h => ?_⟩
    cases hchecked.mpr h.1
  next hok =>
  rw [hok] at hchecked
  rw [and_iff_right (hchecked.mp rfl)]
  split
  · next tip htips =>
    simp only [htips, cons.injEq, and_true, map_eq_some_iff]
    constructor
    · rintro ⟨_, hwalked, h⟩
      obtain ⟨visited, rfl, h⟩ := bind_eq_ok.mp h
      obtain ⟨hlength, h⟩ := throwWhen_bind_eq_ok.mp h
      exact ⟨tip, visited, rfl, hwalked, not_not.mp hlength, (Except.ok.inj h).symm⟩
    · rintro ⟨_, visited, rfl, hwalked, hlength, rfl⟩
      exact ⟨_, hwalked, bind_eq_ok.mpr ⟨visited, rfl, throwWhen_bind_eq_ok.mpr ⟨not_not.mpr hlength, rfl⟩⟩⟩
  · next tips htips =>
    refine ⟨fun h => (by cases h), ?_⟩
    rintro ⟨tip, -, heq, -⟩
    exact absurd heq (htips tip)

lemma resolve_eq_none_iff : resolveGoalGraphProjectionTip taskID facts = some (.ok none) ↔
    ∀ artifact ∈ facts, artifact.projection = none := by
  rw [resolve_eq_ok_iff rfl]
  simp

lemma resolve_eq_tip_iff : resolveGoalGraphProjectionTip taskID facts = some (.ok (some tip)) ↔
    IsLineageTip facts tip := by
  rw [resolve_eq_ok_iff rfl, IsLineageTip]
  generalize facts.filter (fun artifact => artifact.projection.isSome) = successful
  constructor
  · rintro (⟨-, h⟩ | ⟨-, hchecked, _, _, htips, hwalked, hlength, ⟨⟩⟩)
    · cases h
    have htip : tip ∈ successful := mem_of_mem_filter (htips ▸ mem_singleton_self tip)
    obtain ⟨older, hlineage, hsub, rfl, hnodup⟩ := lineage_of_walkPriors hchecked htip hwalked
    rw [List.append_nil] at hnodup hlength
    have hids := nodup_reverse.mp (hnodup nodup_nil)
    rw [length_reverse, length_map] at hlength
    exact ⟨older, (hids.of_map.subperm hsub).perm_of_length_le (Nat.le_of_eq hlength.symm), hids, hlineage⟩
  · rintro ⟨older, hperm, hids, hlineage⟩
    have hsids : (successful.map (·.id)).Nodup := (hperm.map _).nodup_iff.mp hids
    have hmem : ∀ artifact ∈ tip :: older, byID successful artifact.id = some artifact :=
      fun artifact h => byID_of_mem hsids (hperm.subset h)
    have hreferenced : (referencedPriorIDs successful).Perm (older.map (·.id)) := by
      rw [← hlineage.referencedPriorIDs]
      exact hperm.symm.filterMap _
    have htips : successful.filter (fun artifact => artifact.id ∉ referencedPriorIDs successful) = [tip] := by
      simp only [hreferenced.mem_iff]
      refine perm_singleton.mp ((hperm.symm.filter _).trans ?_)
      rw [filter_cons_of_pos (by simpa using (nodup_cons.mp hids).1), filter_eq_nil_iff.mpr]
      intro artifact hartifact
      simpa using ⟨artifact, hartifact, rfl⟩
    have hwalked := hlineage.walkPriors hmem (Nat.le_succ_of_le (Nat.le_of_eq hperm.length_eq))
      (by rw [List.append_nil]; exact nodup_reverse.mpr hids)
    refine .inr ⟨fun h => by simp [h] at hperm, fun artifact h => checkPrior_eq_ok.mpr fun prior hprior => ?_,
      tip, _, htips, hwalked, ?_, rfl⟩
    · obtain ⟨priorArtifact, hpriorMem, rfl⟩ := hlineage.exists_prior (hperm.mem_iff.mpr h) hprior
      exact ⟨priorArtifact, hmem priorArtifact hpriorMem, rfl⟩
    · rw [List.append_nil, length_reverse, length_map, hperm.length_eq]

/-- The resolver returns the newest artifact exactly when the successful facts form one lineage, nothing exactly
when there are none, and throws otherwise, whatever the order of the facts. -/
theorem resolveGoalGraphProjectionTip_spec (taskID : String) (facts : List (GoalGraphProjectionFact π)) :
    (∀ tip, resolveGoalGraphProjectionTip taskID facts = some (.ok (some tip)) ↔ IsLineageTip facts tip) ∧
    (resolveGoalGraphProjectionTip taskID facts = some (.ok none) ↔
      ∀ artifact ∈ facts, artifact.projection = none) ∧
    ((¬∃ tip, IsLineageTip facts tip) → (∃ artifact ∈ facts, artifact.projection ≠ none) →
      ∃ error, resolveGoalGraphProjectionTip taskID facts = some (.error error)) ∧
    ∀ facts' : List (GoalGraphProjectionFact π), facts'.Perm facts → ∀ answer,
      resolveGoalGraphProjectionTip taskID facts' = some (.ok answer) ↔
        resolveGoalGraphProjectionTip taskID facts = some (.ok answer) := by
  refine ⟨fun tip => resolve_eq_tip_iff, resolve_eq_none_iff, fun hnone hsome => ?_, fun facts' hperm answer => ?_⟩
  · obtain ⟨outcome, houtcome⟩ := resolve_eq_some taskID facts
    match outcome, houtcome with
    | .error error, houtcome => exact ⟨error, houtcome⟩
    | .ok (some tip), houtcome => exact absurd ⟨tip, resolve_eq_tip_iff.mp houtcome⟩ hnone
    | .ok none, houtcome =>
      obtain ⟨artifact, hartifact, hne⟩ := hsome
      exact absurd (resolve_eq_none_iff.mp houtcome artifact hartifact) hne
  · cases answer with
    | none =>
      rw [resolve_eq_none_iff, resolve_eq_none_iff]
      simp only [hperm.mem_iff]
    | some => rw [resolve_eq_tip_iff, resolve_eq_tip_iff, IsLineageTip.perm hperm]

/-- Facts without a successful projection form no lineage, and nothing is thrown. -/
theorem resolveGoalGraphProjectionTip_nil : (¬∃ tip, IsLineageTip ([] : List (GoalGraphProjectionFact Unit)) tip) ∧
      resolveGoalGraphProjectionTip "task" ([] : List (GoalGraphProjectionFact Unit)) = some (.ok none) := by
  refine ⟨?_, rfl⟩
  rintro ⟨_, _, hperm, -⟩
  cases hperm.length_eq

end

end OpenCorvus.Engine
